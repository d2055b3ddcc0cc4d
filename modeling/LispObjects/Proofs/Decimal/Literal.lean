import LispObjects.Proofs.Decimal.PlainText
import Mathlib.Tactic.FieldSimp

namespace LispObjects.Decimal

open Text
open scoped Computability

/-!
# Number literals

The texts that are read as numbers, and the numbers that they are read as.

* `Literal` — a literal by its parts: a sign, digits with a point, and an exponent;
* `literalText` — `[+-]?(D+([.]D*)?|[.]D+)([eE][+-]?D+)?`, as a language, and
  `mem_literalText_iff`: the texts of literals;
* `parseExponent_eq_ok_iff`, `parseDigits_eq_ok_iff`, `parse_eq_ok_iff` — what the reader makes of
  the parts, and of the whole;
* `Literal.toRat_kept_eq_iff` — the number that is made of the parts is the one that the literal denotes,
  if its scale is one of 32 bits;
* `literalReading` — a text is read exactly if it is a literal between blanks whose exponent is within
  the limit, and it is read as the number that the literal denotes, if its scale is one of 32 bits;
* `not_exact_of_longFraction` — a literal of too many places.
-/

variable {cs ds body : List Char} {c : Char} {p : Char → Bool} {negative : Bool} {e : Int64}
  {d : Decimal}

/-! ### Literals -/

/-- What may stand before digits. -/
inductive Sign where
  | absent
  | plus
  | minus

namespace Sign

/-- The sign as it is written. -/
def text : Sign → List Char
  | absent => []
  | plus => ['+']
  | minus => ['-']

/-- Whether the number is taken negatively. -/
def isMinus : Sign → Bool
  | minus => true
  | _ => false

end Sign

/-- Digits with a point among them, before them or after them, or without a point. -/
structure PointedDigits where
  whole : List Char
  /-- The digits after the point, if there is a point. -/
  fraction? : Option (List Char)
  allDigits : AllDigits (whole ++ fraction?.getD [])
  ne_nil : whole ++ fraction?.getD [] ≠ []

namespace PointedDigits

/-- The digits after the point; none if there is no point. -/
def fraction (b : PointedDigits) : List Char :=
  b.fraction?.getD []

/-- The digits as they are written, with the point where there is one. -/
def text (b : PointedDigits) : List Char :=
  b.whole ++ b.fraction?.elim [] fun fraction => '.' :: fraction

/-- The whole part, and the places, each worth a tenth of the one before it. -/
def value (b : PointedDigits) : ℚ :=
  digitsValue b.whole + digitsValue b.fraction / 10 ^ b.fraction.length

end PointedDigits

/-- A letter, a sign and digits. -/
structure Exponent where
  mark : Char
  sign : Sign
  digits : List Char
  isMark : isExponentMark mark = true
  allDigits : AllDigits digits
  ne_nil : digits ≠ []

namespace Exponent

/-- What stands after the letter. -/
def numberText (x : Exponent) : List Char :=
  x.sign.text ++ x.digits

/-- The exponent as it is written, with its letter. -/
def text (x : Exponent) : List Char :=
  x.mark :: x.numberText

/-- The power of ten that it stands for. -/
def value (x : Exponent) : ℤ :=
  signed x.sign.isMinus (digitsValue x.digits)

end Exponent

/-- A number literal, by its parts. -/
structure Literal where
  sign : Sign
  body : PointedDigits
  exponent? : Option Exponent

namespace Literal

/-- The literal as it is written. -/
def text (l : Literal) : List Char :=
  l.sign.text ++ l.body.text ++ l.exponent?.elim [] Exponent.text

/-- The exponent; without one it is zero. -/
def exponent (l : Literal) : ℤ :=
  l.exponent?.elim 0 Exponent.value

/-- Its digits without the point, and its sign. -/
def mantissa (l : Literal) : ℤ :=
  signed l.sign.isMinus (digitsValue (l.body.whole ++ l.body.fraction))

/-- How many digits stand after the point. -/
def places (l : Literal) : Nat :=
  l.body.fraction.length

/-- The number that the literal denotes. -/
def value (l : Literal) : ℚ :=
  (if l.sign.isMinus then -1 else 1) * l.body.value * 10 ^ l.exponent

end Literal

/-! ### The grammar -/

/-- One digit or more. -/
def digitsText : Language Char :=
  oneOf Char.isDigit * (oneOf Char.isDigit)∗

/-- `[+-]` -/
def signText : Language Char :=
  oneOf fun c => c == '+' || c == '-'

/-- The texts of number literals: `[+-]?(D+([.]D*)?|[.]D+)([eE][+-]?D+)?`. -/
def literalText : Language Char :=
  optional signText *
    (digitsText * optional ({['.']} * (oneOf Char.isDigit)∗) + {['.']} * digitsText) *
    optional (oneOf isExponentMark * optional signText * digitsText)

/-- One digit or more, all of them digits. -/
theorem mem_digitsText_iff : cs ∈ digitsText ↔ AllDigits cs ∧ cs ≠ [] := by
  rw [digitsText, Language.mem_mul]
  constructor
  · rintro ⟨_, ⟨c, hc, rfl⟩, ds, hds, rfl⟩
    exact ⟨allDigits_cons.mpr ⟨hc, mem_kstar_oneOf.mp hds⟩, by simp⟩
  · rintro ⟨hdigits, hne⟩
    obtain ⟨c, ds, rfl⟩ := List.exists_cons_of_ne_nil hne
    obtain ⟨hc, hds⟩ := allDigits_cons.mp hdigits
    exact ⟨[c], ⟨c, hc, rfl⟩, ds, mem_kstar_oneOf.mpr hds, rfl⟩

/-- An optional sign is one of the three that there are. -/
theorem mem_optional_signText_iff : cs ∈ optional signText ↔ ∃ s : Sign, s.text = cs := by
  rw [mem_optional]
  constructor
  · rintro (rfl | ⟨c, hc, rfl⟩)
    · exact ⟨.absent, rfl⟩
    · rw [Bool.or_eq_true, beq_iff_eq, beq_iff_eq] at hc
      rcases hc with rfl | rfl
      · exact ⟨.plus, rfl⟩
      · exact ⟨.minus, rfl⟩
  · rintro ⟨s, rfl⟩
    cases s with
    | absent => exact .inl rfl
    | plus => exact .inr ⟨'+', rfl, rfl⟩
    | minus => exact .inr ⟨'-', rfl, rfl⟩

/-- The digits before the exponent. -/
theorem mem_pointedText_iff :
    cs ∈ (digitsText * optional ({['.']} * (oneOf Char.isDigit)∗) + {['.']} * digitsText :
        Language Char) ↔ ∃ b : PointedDigits, b.text = cs := by
  rw [Language.mem_add, Language.mem_mul, Language.mem_mul]
  constructor
  · rintro (⟨whole, hwhole, fraction, hfraction, rfl⟩ | ⟨_, rfl, fraction, hfraction, rfl⟩)
    · obtain ⟨hdigits, hne⟩ := mem_digitsText_iff.mp hwhole
      -- with digits before it a point may stand without digits after it
      rcases hfraction with rfl | ⟨_, rfl, fraction, hfraction, rfl⟩
      · exact ⟨⟨whole, none, by simpa using hdigits, by simpa using hne⟩, rfl⟩
      · have hall : AllDigits (whole ++ fraction) :=
          allDigits_append.mpr ⟨hdigits, mem_kstar_oneOf.mp hfraction⟩
        exact ⟨⟨whole, some fraction, hall, by simp [hne]⟩, rfl⟩
    · obtain ⟨hdigits, hne⟩ := mem_digitsText_iff.mp hfraction
      exact ⟨⟨[], some fraction, by simpa using hdigits, by simpa using hne⟩, rfl⟩
  · rintro ⟨⟨whole, fraction?, hall, hne⟩, rfl⟩
    cases fraction? with
    | none =>
      refine .inl ⟨whole, mem_digitsText_iff.mpr ⟨?_, ?_⟩, [], .inl rfl, rfl⟩
      · simpa using hall
      · simpa using hne
    | some fraction =>
      obtain ⟨hwhole, hfraction⟩ := allDigits_append.mp hall
      -- without digits before it a point needs one after it
      by_cases hnil : whole = []
      · subst hnil
        exact .inr ⟨['.'], rfl, fraction, mem_digitsText_iff.mpr ⟨hfraction, by simpa using hne⟩, rfl⟩
      · exact .inl ⟨whole, mem_digitsText_iff.mpr ⟨hwhole, hnil⟩, '.' :: fraction,
          .inr ⟨['.'], rfl, fraction, mem_kstar_oneOf.mpr hfraction, rfl⟩, rfl⟩

/-- What the grammar takes for an exponent has its three parts. -/
theorem mem_exponentText_iff :
    cs ∈ (oneOf isExponentMark * optional signText * digitsText : Language Char) ↔
      ∃ x : Exponent, x.text = cs := by
  rw [Language.mem_mul]
  constructor
  · rintro ⟨_, ⟨_, ⟨c, hc, rfl⟩, _, hsign, rfl⟩, ds, hdigits, rfl⟩
    obtain ⟨s, rfl⟩ := mem_optional_signText_iff.mp hsign
    obtain ⟨hall, hne⟩ := mem_digitsText_iff.mp hdigits
    exact ⟨⟨c, s, ds, hc, hall, hne⟩, rfl⟩
  · rintro ⟨⟨c, s, ds, hc, hall, hne⟩, rfl⟩
    exact ⟨[c] ++ s.text, ⟨[c], ⟨c, hc, rfl⟩, s.text, mem_optional_signText_iff.mpr ⟨s, rfl⟩, rfl⟩,
      ds, mem_digitsText_iff.mpr ⟨hall, hne⟩, rfl⟩

/-- **The grammar** describes the texts of literals. -/
theorem mem_literalText_iff : cs ∈ literalText ↔ ∃ l : Literal, l.text = cs := by
  rw [literalText, Language.mem_mul]
  constructor
  · rintro ⟨_, ⟨_, hsign, _, hbody, rfl⟩, _, hexponent, rfl⟩
    obtain ⟨s, rfl⟩ := mem_optional_signText_iff.mp hsign
    obtain ⟨b, rfl⟩ := mem_pointedText_iff.mp hbody
    rcases hexponent with rfl | hexponent
    · exact ⟨⟨s, b, none⟩, rfl⟩
    · obtain ⟨x, rfl⟩ := mem_exponentText_iff.mp hexponent
      exact ⟨⟨s, b, some x⟩, rfl⟩
  · rintro ⟨⟨s, b, x?⟩, rfl⟩
    -- the sign and the digits, which every literal has
    have hleft : s.text ++ b.text ∈ optional signText *
        (digitsText * optional ({['.']} * (oneOf Char.isDigit)∗) + {['.']} * digitsText) :=
      ⟨s.text, mem_optional_signText_iff.mpr ⟨s, rfl⟩, b.text, mem_pointedText_iff.mpr ⟨b, rfl⟩, rfl⟩
    cases x? with
    | none => exact ⟨_, hleft, [], .inl rfl, rfl⟩
    | some x => exact ⟨_, hleft, x.text, .inr (mem_exponentText_iff.mpr ⟨x, rfl⟩), rfl⟩

/-! ### Reading the parts -/

variable {n places : Nat}

/-- A sign is taken off a text, if there is one. -/
theorem exists_sign_of_splitSign (cs : List Char) :
    ∃ (s : Sign) (rest : List Char), cs = s.text ++ rest ∧ splitSign cs = (s.isMinus, rest) := by
  unfold splitSign
  split
  · exact ⟨.minus, _, rfl, rfl⟩
  · exact ⟨.plus, _, rfl, rfl⟩
  · exact ⟨.absent, _, rfl, rfl⟩

/-- The sign is all that is taken off a text that goes on with a digit or with a point. -/
theorem splitSign_append (s : Sign) (hc : c.isDigit = true ∨ c = '.') (cs : List Char) :
    splitSign (s.text ++ c :: cs) = (s.isMinus, c :: cs) := by
  cases s with
  | plus => rfl
  | minus => rfl
  | absent =>
    apply splitSign_of_ne <;>
    · intro h
      have hcs : c = _ := Option.some.inj h
      subst hcs
      revert hc
      decide

/-- A text is split at the first character of a kind, or it has none. -/
theorem eq_append_of_splitFirst (p : Char → Bool) (cs : List Char) :
    (splitFirst p cs = (cs, none)) ∨
      ∃ before c after, p c = true ∧ splitFirst p cs = (before, some after) ∧
        cs = before ++ c :: after := by
  induction cs with
  | nil => exact .inl rfl
  | cons c cs ih =>
    by_cases hc : p c = true
    · exact .inr ⟨[], c, cs, hc, by simp [splitFirst, hc], rfl⟩
    · rcases ih with hnone | ⟨before, d, after, hd, hsplit, hcs⟩
      · exact .inl (by simp [splitFirst, hc, hnone])
      · exact .inr ⟨c :: before, d, after, hd, by simp [splitFirst, hc, hsplit], by rw [hcs]; rfl⟩

/-- What is read as a 64-bit integer, in terms of what is left when the sign is taken off. -/
theorem parseInt64?_of_splitSign (h : splitSign cs = (negative, ds)) :
    parseInt64? cs = some e ↔
      AllDigits ds ∧ ds ≠ [] ∧ e.toInt = signed negative (digitsValue ds) := by
  have hdigits : (ds.isEmpty || !ds.all Char.isDigit) = true ↔ ¬ (AllDigits ds ∧ ds ≠ []) := by
    have hall : ds.all Char.isDigit = true ↔ AllDigits ds := List.all_eq_true
    rw [Bool.or_eq_true, Bool.not_eq_true', ← Bool.not_eq_true, hall, List.isEmpty_iff]
    tauto
  simp only [parseInt64?, h]
  split
  · next hbad => exact iff_of_false nofun fun he => hdigits.mp hbad ⟨he.1, he.2.1⟩
  · next hgood =>
    obtain ⟨hall, hne⟩ := not_not.mp (hdigits.not.mp hgood)
    rw [and_iff_right hall, and_iff_right hne]
    -- what is read is a number of 64 bits, or none
    generalize signed negative (digitsValue ds) = value
    have hmin : Int64.minValue.toInt = -2 ^ 63 := rfl
    have hmax : Int64.maxValue.toInt = 2 ^ 63 - 1 := rfl
    split
    · next hwide =>
      rw [Bool.or_eq_true, decide_eq_true_eq, decide_eq_true_eq] at hwide
      have hlow := e.le_toInt
      have hhigh := e.toInt_lt
      exact iff_of_false nofun fun he => by omega
    · next hfits =>
      rw [Bool.or_eq_true, decide_eq_true_eq, decide_eq_true_eq] at hfits
      have hvalue : (Int64.ofInt value).toInt = value :=
        Int64.toInt_ofInt_of_le (by omega) (by omega)
      rw [Option.some.injEq, ← hvalue, Int64.toInt_inj, hvalue, eq_comm]

/-- The exponents that are read: those within the limit, and the one that has no magnitude. -/
def IsReadExponent (exponent : ℤ) : Prop :=
  exponent.natAbs ≤ exponentLimit ∨ exponent = -2 ^ 63

/-- An exponent of 64 bits is read unless its absolute value is beyond the limit. The absolute value of
    the least integer is that integer again, and so it is read. -/
theorem isReadExponent_toInt_iff : IsReadExponent e.toInt ↔ ¬ exponentLimit < e.abs.toInt := by
  have hleast : e = Int64.minValue ↔ e.toInt = -2 ^ 63 := Int64.toInt_inj.symm
  have hlimit : exponentLimit = 100000 := rfl
  rw [IsReadExponent, toInt_abs]
  split
  · next h => exact iff_of_true (.inr (hleast.mp h)) (by omega)
  · next h =>
    rw [or_iff_left (mt hleast.mpr h)]
    omega

/-- What is read as an exponent is a 64-bit integer. -/
theorem parseExponent_eq_ok_iff :
    parseExponent cs = .ok e ↔ parseInt64? cs = some e ∧ IsReadExponent e.toInt := by
  unfold parseExponent
  split
  · next hnone =>
    rw [hnone]
    exact iff_of_false nofun nofun
  · next x hx =>
    -- the limit is put on the absolute value as 64 bits have it
    rw [hx, Option.some.injEq, isReadExponent_toInt_iff]
    split
    · next hbeyond => exact iff_of_false nofun fun ⟨hx, hread⟩ => hread (hx ▸ hbeyond)
    · next hwithin =>
      rw [Except.ok.injEq]
      exact ⟨fun hx => ⟨hx, hx ▸ hwithin⟩, And.left⟩

/-- **Exponents** that are read are a sign and digits. -/
theorem exists_exponent_of_parseExponent (hc : isExponentMark c = true)
    (h : parseExponent cs = .ok e) :
    ∃ x : Exponent, x.text = c :: cs ∧ IsReadExponent x.value := by
  obtain ⟨s, ds, rfl, hsign⟩ := exists_sign_of_splitSign cs
  obtain ⟨hx, hread⟩ := parseExponent_eq_ok_iff.mp h
  obtain ⟨hdigits, hne, hvalue⟩ := (parseInt64?_of_splitSign hsign).mp hx
  rw [hvalue] at hread
  exact ⟨⟨c, s, ds, hc, hdigits, hne⟩, rfl, hread⟩

/-- What is read as digits, in terms of what is before and after the first point. -/
theorem parseDigits_of_splitFirst {whole : List Char} {fraction? : Option (List Char)}
    (h : splitFirst (· == '.') cs = (whole, fraction?)) :
    parseDigits cs = .ok (n, places) ↔
      AllDigits (whole ++ fraction?.getD []) ∧ whole ++ fraction?.getD [] ≠ [] ∧
        n = digitsValue (whole ++ fraction?.getD []) ∧ places = (fraction?.getD []).length := by
  simp only [parseDigits, h]
  generalize fraction?.getD [] = fraction
  have hfail : ∀ f, (.error f : Except LiteralError (Nat × Nat)) ≠ .ok (n, places) := by
    rintro f ⟨⟩
  split
  · next hempty =>
    exact iff_of_false (hfail _) fun hd => hd.2.1 (List.isEmpty_iff.mp hempty)
  · next hempty =>
    have hne : whole ++ fraction ≠ [] := fun hnil => hempty (List.isEmpty_iff.mpr hnil)
    split
    · next c hc =>
      -- a character that is no digit is reported
      have hmem := List.mem_of_find?_eq_some hc
      have hnot := List.find?_some hc
      refine iff_of_false (hfail _) fun hd => ?_
      rw [hd.1 c hmem] at hnot
      cases hnot
    · next hnone =>
      have hall : AllDigits (whole ++ fraction) :=
        fun c hc => by simpa using List.find?_eq_none.mp hnone c hc
      rw [and_iff_right hall, and_iff_right hne, Except.ok.injEq, Prod.mk.injEq, eq_comm,
        @eq_comm _ places]

/-- **Digits** are read if there are any and nothing else is there but a point, and as the number that
    they make without the point. -/
theorem parseDigits_eq_ok_iff :
    parseDigits cs = .ok (n, places) ↔
      ∃ b : PointedDigits, b.text = cs ∧ n = digitsValue (b.whole ++ b.fraction) ∧
        places = b.fraction.length := by
  constructor
  · intro h
    -- the text is split at its first point, if it has one
    rcases eq_append_of_splitFirst (· == '.') cs with hsplit | ⟨whole, c, after, hc, hsplit, rfl⟩
    · obtain ⟨hdigits, hne, hn, hplaces⟩ := (parseDigits_of_splitFirst hsplit).mp h
      exact ⟨⟨cs, none, hdigits, hne⟩, List.append_nil cs, hn, hplaces⟩
    · obtain ⟨hdigits, hne, hn, hplaces⟩ := (parseDigits_of_splitFirst hsplit).mp h
      obtain rfl : c = '.' := beq_iff_eq.mp hc
      exact ⟨⟨whole, some after, hdigits, hne⟩, rfl, hn, hplaces⟩
  · rintro ⟨⟨whole, fraction?, hdigits, hne⟩, rfl, rfl, rfl⟩
    have hwhole : ∀ c ∈ whole, (c == '.') = false :=
      fun c hc => ne_point_of_isDigit (hdigits c (List.mem_append_left _ hc))
    have hsplit : splitFirst (· == '.') (PointedDigits.text ⟨whole, fraction?, hdigits, hne⟩) =
        (whole, fraction?) := by
      cases fraction? with
      | none => exact (congrArg _ (List.append_nil whole)).trans (splitFirst_of_forall hwhole)
      | some fraction => exact splitFirst_append_cons hwhole rfl
    exact (parseDigits_of_splitFirst hsplit).mpr ⟨hdigits, hne, rfl, rfl⟩

/-! ### Reading literals -/

/-- Digits, and a point. -/
theorem PointedDigits.isDigit_or_point (b : PointedDigits) (hc : c ∈ b.text) :
    c.isDigit = true ∨ c = '.' := by
  obtain ⟨whole, fraction?, hdigits, hne⟩ := b
  rcases List.mem_append.mp hc with hc | hc
  · exact .inl (hdigits c (List.mem_append_left _ hc))
  · cases fraction? with
    | none => cases hc
    | some fraction =>
      rcases List.mem_cons.mp hc with rfl | hc
      · exact .inr rfl
      · exact .inl (hdigits c (List.mem_append_right _ hc))

/-- There is a digit in any case. -/
theorem PointedDigits.text_ne_nil (b : PointedDigits) : b.text ≠ [] := by
  obtain ⟨whole, fraction?, hdigits, hne⟩ := b
  cases fraction? with
  | none => simpa [text] using hne
  | some fraction => simp [text]

/-- No sign is blank. -/
theorem Sign.isBlank_eq_false (s : Sign) (hc : c ∈ s.text) : isBlank c = false := by
  cases s with
  | absent => cases hc
  | plus => rw [List.mem_singleton.mp hc]; rfl
  | minus => rw [List.mem_singleton.mp hc]; rfl

/-- There are no blanks in a literal. -/
theorem Literal.isBlank_eq_false (l : Literal) (hc : c ∈ l.text) : isBlank c = false := by
  obtain ⟨s, b, x?⟩ := l
  rcases List.mem_append.mp hc with hc | hc
  · rcases List.mem_append.mp hc with hc | hc
    · exact s.isBlank_eq_false hc
    · rcases b.isDigit_or_point hc with hdigit | rfl
      · exact isBlank_of_isDigit hdigit
      · rfl
  -- after the digits there may be the mark, a sign and more digits
  · cases x? with
    | none => cases hc
    | some x =>
      rcases List.mem_cons.mp hc with rfl | hc
      · have hmark := x.isMark
        rw [isExponentMark, Bool.or_eq_true, beq_iff_eq, beq_iff_eq] at hmark
        rcases hmark with hmark | hmark <;> (rw [hmark]; rfl)
      · rcases List.mem_append.mp hc with hc | hc
        · exact x.sign.isBlank_eq_false hc
        · exact isBlank_of_isDigit (x.allDigits _ hc)

/-- The number that is made of the parts is the one that the literal denotes. -/
theorem Literal.toRat_ofPower (l : Literal) :
    (ofPower l.mantissa (l.exponent - l.places)).toRat = l.value := by
  have hten : (10 : ℚ) ≠ 0 := by norm_num
  have hsign : ∀ (negative : Bool) (n : Nat),
      ((signed negative n : ℤ) : ℚ) = (if negative then -1 else 1) * n := by
    intro negative n
    cases negative <;> simp [signed]
  rw [Decimal.toRat_ofPower, mantissa, Literal.places, hsign, digitsValue_append, value, PointedDigits.value,
    zpow_sub₀ hten, zpow_natCast]
  push_cast
  field_simp

/-- Another power of ten makes another number of the digits, unless they are all zeros. -/
theorem Literal.toRat_ofPower_eq_iff (l : Literal) (power : ℤ) :
    (ofPower l.mantissa power).toRat = l.value ↔ l.value = 0 ∨ power = l.exponent - l.places := by
  have hten : Function.Injective fun n : ℤ => (10 : ℚ) ^ n :=
    zpow_right_injective₀ (by norm_num) (by norm_num)
  rw [← l.toRat_ofPower, Decimal.toRat_ofPower, Decimal.toRat_ofPower, mul_eq_mul_left_iff,
    mul_eq_zero, or_iff_left (ten_zpow_ne_zero _), hten.eq_iff, or_comm]

/-- **The value.** With the power of ten that is kept it is the one that the literal denotes exactly if the
scale is one of 32 bits. -/
theorem Literal.toRat_kept_eq_iff (l : Literal) (he : e.toInt = l.exponent)
    (h : l.exponent.natAbs ≤ exponentLimit) :
    (ofPower l.mantissa (keptPower e l.places)).toRat = l.value ↔
      l.value = 0 ∨ l.places - l.exponent < scaleBound := by
  rw [l.toRat_ofPower_eq_iff, ← he, keptPower_eq_iff (by rw [he]; exact h)]

/-- What is read, in terms of where the text is split. -/
theorem parse_of_split {rest : List Char} {exponentText : Option (List Char)} (hne : trim cs ≠ [])
    (hsign : splitSign (trim cs) = (negative, rest))
    (hsplit : splitFirst isExponentMark rest = (body, exponentText)) :
    parse cs = .ok d ↔ ∃ e n places, exponentText.elim (.ok 0) parseExponent = .ok e ∧
      parseDigits body = .ok (n, places) ∧ d = ofPower (signed negative n) (keptPower e places) := by
  have hempty : (trim cs).isEmpty = false := by
    cases htrim : trim cs with
    | nil => exact absurd htrim hne
    | cons c ds => rfl
  simp only [parse, hempty, hsign, hsplit]
  have hpure : (pure 0 : Except LiteralError Int64) = .ok 0 := rfl
  rw [hpure]
  -- the exponent is read before the digits, so its fault is the one that is reported
  cases exponentText.elim (.ok 0) parseExponent with
  | error f =>
    refine iff_of_false ?_ ?_
    · rintro ⟨⟩
    · rintro ⟨_, _, _, ⟨⟩, _⟩
  | ok e =>
    cases parseDigits body with
    | error f =>
      refine iff_of_false ?_ ?_
      · rintro ⟨⟩
      · rintro ⟨_, _, _, _, ⟨⟩, _⟩
    | ok digits =>
      obtain ⟨n, places⟩ := digits
      constructor
      · rintro ⟨⟩
        exact ⟨e, n, places, rfl, rfl, rfl⟩
      · rintro ⟨_, _, _, ⟨⟩, ⟨⟩, rfl⟩
        rfl

/-- **Soundness.** What is read is, but for blanks around it, a literal. -/
theorem exists_literal_of_parse (h : parse cs = .ok d) :
    ∃ l : Literal, l.text = trim cs ∧ IsReadExponent l.exponent := by
  have hne : trim cs ≠ [] := by
    intro hnil
    rw [parse, hnil] at h
    cases h
  obtain ⟨s, rest, htext, hsign⟩ := exists_sign_of_splitSign (trim cs)
  rw [htext]
  -- the parts are found in the order in which they are read off: sign, exponent, digits
  rcases eq_append_of_splitFirst isExponentMark rest with hsplit | ⟨_, mark, _, hmark, hsplit, rfl⟩
  · obtain ⟨_, _, _, -, hbody, -⟩ := (parse_of_split hne hsign hsplit).mp h
    obtain ⟨b, rfl, -, -⟩ := parseDigits_eq_ok_iff.mp hbody
    exact ⟨⟨s, b, none⟩, List.append_nil _, .inl (Nat.zero_le _)⟩
  · obtain ⟨_, _, _, hexponent, hbody, -⟩ := (parse_of_split hne hsign hsplit).mp h
    obtain ⟨x, hx, hread⟩ := exists_exponent_of_parseExponent hmark hexponent
    obtain ⟨b, rfl, -, -⟩ := parseDigits_eq_ok_iff.mp hbody
    rw [← hx]
    exact ⟨⟨s, b, some x⟩, List.append_assoc _ _ _, hread⟩

/-- The reader splits a literal where its exponent begins. -/
theorem Literal.splitFirst_exponent (l : Literal) :
    splitFirst isExponentMark (l.body.text ++ l.exponent?.elim [] Exponent.text) =
      (l.body.text, l.exponent?.map Exponent.numberText) := by
  have hmark : ∀ c ∈ l.body.text, isExponentMark c = false := by
    intro c hc
    rcases l.body.isDigit_or_point hc with hdigit | rfl
    · exact isExponentMark_of_isDigit hdigit
    · rfl
  cases l.exponent? with
  | none => exact (congrArg _ (List.append_nil _)).trans (splitFirst_of_forall hmark)
  | some x => exact splitFirst_append_cons hmark x.isMark

/-- The reader takes the sign off a literal. -/
theorem Literal.splitSign_text (l : Literal) :
    splitSign l.text = (l.sign.isMinus, l.body.text ++ l.exponent?.elim [] Exponent.text) := by
  obtain ⟨c, rest, hbody⟩ := List.exists_cons_of_ne_nil l.body.text_ne_nil
  have hc : c.isDigit = true ∨ c = '.' := l.body.isDigit_or_point (by rw [hbody]; simp)
  rw [Literal.text, List.append_assoc, hbody]
  exact splitSign_append l.sign hc _

/-- A literal is not empty. -/
theorem Literal.text_ne_nil (l : Literal) : l.text ≠ [] := by
  have hbody := l.body.text_ne_nil
  simp [Literal.text, hbody]

/-- The reader takes the sign off what stands after the letter. -/
theorem Exponent.splitSign_numberText (x : Exponent) :
    splitSign x.numberText = (x.sign.isMinus, x.digits) := by
  obtain ⟨c, ds, hdigits⟩ := List.exists_cons_of_ne_nil x.ne_nil
  have hc : c.isDigit = true := x.allDigits c (by rw [hdigits]; simp)
  rw [Exponent.numberText, hdigits]
  exact splitSign_append x.sign (.inl hc) ds

/-- What stands after the letter is read as a 64-bit integer, if its value is one. -/
theorem Exponent.parseInt64?_numberText (x : Exponent) :
    parseInt64? x.numberText = some e ↔ e.toInt = x.value := by
  rw [parseInt64?_of_splitSign x.splitSign_numberText, and_iff_right x.allDigits,
    and_iff_right x.ne_nil]
  rfl

/-- What is read for its exponent, if it has one, is its value. -/
theorem Literal.parseExponent_eq_ok_iff (l : Literal) :
    (l.exponent?.map Exponent.numberText).elim (.ok 0) parseExponent = .ok e ↔
      IsReadExponent l.exponent ∧ e.toInt = l.exponent := by
  rw [exponent]
  -- without an exponent zero is kept, which is within the limit
  cases l.exponent? with
  | none =>
    have hzero : IsReadExponent 0 := .inl (Nat.zero_le _)
    show (Except.ok 0 : Except LiteralError Int64) = .ok e ↔ IsReadExponent 0 ∧ e.toInt = 0
    rw [Except.ok.injEq, and_iff_right hzero, eq_comm]
    exact Int64.toInt_inj.symm
  | some x =>
    show parseExponent x.numberText = .ok e ↔ IsReadExponent x.value ∧ e.toInt = x.value
    rw [Decimal.parseExponent_eq_ok_iff, x.parseInt64?_numberText]
    constructor
    · rintro ⟨hvalue, hread⟩
      rw [hvalue] at hread
      exact ⟨hread, hvalue⟩
    · rintro ⟨hread, hvalue⟩
      rw [← hvalue] at hread
      exact ⟨hvalue, hread⟩

/-- **Completeness.** A literal, also with blanks around it, is read exactly if its exponent is, and as the
number of its digits with the power of ten that is kept. -/
theorem parse_eq_ok_iff (l : Literal) (h : trim cs = l.text) :
    parse cs = .ok d ↔
      ∃ e : Int64, IsReadExponent l.exponent ∧ e.toInt = l.exponent ∧
        d = ofPower l.mantissa (keptPower e l.places) := by
  have hne : trim cs ≠ [] := by rw [h]; exact l.text_ne_nil
  have hsign := l.splitSign_text
  rw [← h] at hsign
  have hdigits : parseDigits l.body.text =
      .ok (digitsValue (l.body.whole ++ l.body.fraction), l.body.fraction.length) :=
    parseDigits_eq_ok_iff.mpr ⟨l.body, rfl, rfl, rfl⟩
  rw [parse_of_split hne hsign l.splitFirst_exponent, hdigits]
  constructor
  · rintro ⟨e, n, places, he, ⟨⟩, rfl⟩
    obtain ⟨hread, hvalue⟩ := l.parseExponent_eq_ok_iff.mp he
    exact ⟨e, hread, hvalue, rfl⟩
  · rintro ⟨e, hread, hvalue, rfl⟩
    exact ⟨e, _, _, l.parseExponent_eq_ok_iff.mpr ⟨hread, hvalue⟩, rfl, rfl⟩

/-- Every exponent that is read is a 64-bit integer. -/
theorem exists_toInt_eq {exponent : ℤ} (h : IsReadExponent exponent) :
    ∃ e : Int64, e.toInt = exponent := by
  have hlimit : exponentLimit = 100000 := rfl
  have hmin : Int64.minValue.toInt = -2 ^ 63 := rfl
  have hmax : Int64.maxValue.toInt = 2 ^ 63 - 1 := rfl
  refine ⟨.ofInt exponent, Int64.toInt_ofInt_of_le ?_ ?_⟩
  · rcases h with h | h <;> omega
  · rcases h with h | h <;> omega

/-! ### Strings -/

/-- The string is a literal with blanks around it. -/
def IsLiteral (s : String) (l : Literal) : Prop :=
  ∃ lead trail, s.toList = lead ++ l.text ++ trail ∧ (∀ c ∈ lead, isBlank c = true) ∧
    ∀ c ∈ trail, isBlank c = true

/-- A text is a literal exactly if it has the literal's text between its blanks. -/
theorem isLiteral_iff {s : String} {l : Literal} : IsLiteral s l ↔ trim s.toList = l.text := by
  constructor
  · rintro ⟨lead, trail, hs, hlead, htrail⟩
    rw [hs, trim_append hlead (fun c hc => l.isBlank_eq_false hc) htrail]
  · intro h
    obtain ⟨lead, trail, hs, hlead, htrail⟩ := exists_eq_append_trim s.toList
    exact ⟨lead, trail, by rw [← h, ← hs], hlead, htrail⟩

/-- Literals with an exponent that is read are read. -/
theorem exists_ofString_of_isLiteral {s : String} {l : Literal} (h : IsLiteral s l)
    (hread : IsReadExponent l.exponent) :
    ∃ e : Int64, e.toInt = l.exponent ∧
      ofString s = .ok (ofPower l.mantissa (keptPower e l.places)) := by
  obtain ⟨e, he⟩ := exists_toInt_eq hread
  exact ⟨e, he, (parse_eq_ok_iff l (isLiteral_iff.mp h)).mpr ⟨e, hread, he, rfl⟩⟩

/-- How a string is read as a number. -/
structure LiteralReading (s : String) : Prop where
  /-- The literals are the texts of the grammar. -/
  grammar : ∀ cs, cs ∈ literalText ↔ ∃ l : Literal, l.text = cs
  /-- What is read is a literal between blanks with an exponent that is not too large, or with the one whose
  magnitude is none. -/
  accepted : (∃ d, ofString s = .ok d) ↔
    ∃ l, IsLiteral s l ∧ (l.exponent.natAbs ≤ 100000 ∨ l.exponent = -2 ^ 63)
  /-- Of an exponent that is not too large it is read as the number that it denotes exactly if that is zero or
  has a scale of 32 bits, -/
  value : ∀ l, IsLiteral s l → l.exponent.natAbs ≤ 100000 →
    ∃ d, ofString s = .ok d ∧
      (d.toRat = l.value ↔ l.value = 0 ∨ l.places - l.exponent < 2 ^ 32)
  /-- and in lowest terms. -/
  canonical : ∀ d, ofString s = .ok d → IsCanonical d.mantissa d.scale

/-- **Number literals**, among all strings. -/
theorem literalReading (s : String) : LiteralReading s where
  grammar _ := mem_literalText_iff
  -- a literal is refused for its exponent and for nothing else
  accepted := by
    constructor
    · rintro ⟨d, hd⟩
      obtain ⟨l, htext, hread⟩ := exists_literal_of_parse hd
      exact ⟨l, isLiteral_iff.mpr htext.symm, hread⟩
    · rintro ⟨l, hl, hread⟩
      obtain ⟨e, -, hd⟩ := exists_ofString_of_isLiteral hl hread
      exact ⟨_, hd⟩
  value l hl hlimit := by
    obtain ⟨e, he, hd⟩ := exists_ofString_of_isLiteral hl (.inl hlimit)
    exact ⟨_, hd, l.toRat_kept_eq_iff he hlimit⟩
  canonical d _ := d.isCanonical

/-- A point may be the first of the digits, and the exponent may be more than there are places. -/
example : ofString " +.5e2\n" = .ok (ofInt 50) := by decide

/-- The literal of a one with so many zeros between the point and it. -/
def oneAfterZerosLiteral (zeros : Nat) : Literal where
  sign := .absent
  body := ⟨['0'], some (List.replicate zeros '0' ++ ['1']),
    allDigits_append.mpr ⟨isWhole_zero.allDigits, (isFraction_zerosAndOne zeros).allDigits⟩, by simp⟩
  exponent? := none

/-- Zeros and a one after a point are a literal. -/
theorem isLiteral_oneAfterZeros (zeros : Nat) :
    IsLiteral (oneAfterZeros zeros) (oneAfterZerosLiteral zeros) := by
  refine ⟨[], [], ?_, nofun, nofun⟩
  rw [toList_oneAfterZeros, numeral, pointed_of_ne_nil (by simp)]
  simp [Literal.text, PointedDigits.text, Sign.text, oneAfterZerosLiteral]

/-- The value of that literal is less than one. -/
theorem value_oneAfterZerosLiteral_lt (zeros : Nat) : (oneAfterZerosLiteral zeros).value < 1 := by
  have hmantissa : (oneAfterZerosLiteral zeros).mantissa = 1 :=
    congrArg Nat.cast (digitsValue_zerosAndOne zeros)
  have hplaces : (oneAfterZerosLiteral zeros).places = zeros + 1 := by
    simp [Literal.places, PointedDigits.fraction, oneAfterZerosLiteral]
  have hexponent : (oneAfterZerosLiteral zeros).exponent = 0 := rfl
  rw [← Literal.toRat_ofPower, toRat_ofPower, hmantissa, hplaces, hexponent, Int.cast_one, one_mul]
  exact zpow_lt_one_of_neg₀ (by norm_num) (by omega)

/-- A literal of as many places as there are scales is close to zero, and is read as one. -/
theorem not_exact_of_longFraction :
    ∃ l, IsLiteral (oneAfterZeros 4294967295) l ∧ l.exponent = 0 ∧
      ofString (oneAfterZeros 4294967295) = .ok (ofInt 1) ∧ (ofInt 1).toRat ≠ l.value := by
  have hkept : keptPower 0 (4294967295 + 1) = 0 := by decide
  have hread : ofString (oneAfterZeros 4294967295) = .ok (ofInt 1) := by
    rw [ofString_oneAfterZeros, hkept]
    rfl
  have hone : (ofInt 1).toRat = 1 := by simp [toRat, scaledRat, ofInt]
  refine ⟨oneAfterZerosLiteral 4294967295, isLiteral_oneAfterZeros _, rfl, hread, ?_⟩
  rw [hone]
  exact (value_oneAfterZerosLiteral_lt _).ne'

end LispObjects.Decimal
