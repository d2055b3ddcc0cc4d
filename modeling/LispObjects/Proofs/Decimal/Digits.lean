import LispObjects.Decimal.Literal
import Mathlib.Data.List.Induction
import Mathlib.Tactic.Linarith
import Mathlib.Tactic.Ring

namespace LispObjects.Decimal

/-!
# Strings of digits

A string of digits stands for a number, and the number and the length determine the string.

* `digitsValue_append`, `digitsValue_lt` — how the value grows with the string;
* `AllDigits.eq_of_digitsValue_eq` — strings of one length and one value are the same;
* `toDigits_digitsValue` — a string without leading zeros is what its value is written as;
* `replicate_append_toDigits` — any other string is that with zeros in front.
-/

variable {cs ds : List Char} {c : Char} {n scale : Nat}

/-- The string holds digits only. -/
def AllDigits (cs : List Char) : Prop :=
  ∀ c ∈ cs, c.isDigit = true

@[simp] theorem allDigits_nil : AllDigits [] := by
  simp [AllDigits]

/-- A text of digits is one in its parts. -/
@[simp] theorem allDigits_append : AllDigits (cs ++ ds) ↔ AllDigits cs ∧ AllDigits ds := by
  simp [AllDigits, or_imp, forall_and]

/-- A text of digits is a digit and a text of digits. -/
@[simp] theorem allDigits_cons : AllDigits (c :: cs) ↔ c.isDigit = true ∧ AllDigits cs := by
  simp [AllDigits]

/-- Zeros are digits. -/
theorem allDigits_replicate_zero (k : Nat) : AllDigits (List.replicate k '0') := by
  intro c hc
  rw [List.eq_of_mem_replicate hc]
  rfl

/-- A number is written with digits. -/
theorem allDigits_toDigits (n : Nat) : AllDigits (Nat.toDigits 10 n) :=
  fun _ hc => Nat.isDigit_of_mem_toDigits (by omega) (by omega) hc

/-! ### Values -/

/-- The value of one digit. -/
def digitValue (c : Char) : Nat :=
  c.toNat - '0'.toNat

/-- The code points of the ten digits follow each other. -/
theorem toNat_of_isDigit (h : c.isDigit = true) : 48 ≤ c.toNat ∧ c.toNat ≤ 57 := by
  simp only [Char.isDigit, Bool.and_eq_true, decide_eq_true_eq] at h
  exact ⟨h.1, h.2⟩

/-- A digit says less than ten. -/
theorem digitValue_lt (h : c.isDigit = true) : digitValue c < 10 := by
  have hc := toNat_of_isDigit h
  have hzero : '0'.toNat = 48 := rfl
  rw [digitValue]
  omega

/-- A digit is determined by its value. -/
theorem digitChar_digitValue (h : c.isDigit = true) : Nat.digitChar (digitValue c) = c := by
  have hc := toNat_of_isDigit h
  have hzero : '0'.toNat = 48 := rfl
  apply Char.toNat_inj.mp
  rw [Nat.toNat_digitChar_of_lt_ten (digitValue_lt h), digitValue]
  omega

/-- Only the digit `0` says zero. -/
theorem digitValue_eq_zero_iff (h : c.isDigit = true) : digitValue c = 0 ↔ c = '0' := by
  constructor
  · intro hvalue
    have hchar := digitChar_digitValue h
    rw [hvalue] at hchar
    exact hchar.symm
  · rintro rfl
    rfl

@[simp] theorem digitsValue_nil : digitsValue [] = 0 := rfl

/-- Digits are worth a power of ten more for each digit behind them. -/
theorem digitsValue_append (cs ds : List Char) :
    digitsValue (cs ++ ds) = 10 ^ ds.length * digitsValue cs + digitsValue ds := by
  rw [digitsValue, Nat.ofDigitChars_append, Nat.ofDigitChars_eq_ofDigitChars_zero]
  rfl

/-- A single digit says what it says in front of others. -/
theorem digitsValue_singleton (c : Char) : digitsValue [c] = digitValue c := by
  simp [digitsValue, digitValue, Nat.ofDigitChars_cons]

/-- A digit at the end makes the others worth ten times as much. -/
theorem digitsValue_concat (cs : List Char) (c : Char) :
    digitsValue (cs ++ [c]) = 10 * digitsValue cs + digitValue c := by
  rw [digitsValue_append, digitsValue_singleton, List.length_singleton, pow_one]

/-- Zeros alone say zero. -/
@[simp] theorem digitsValue_replicate_zero (k : Nat) : digitsValue (List.replicate k '0') = 0 := by
  rw [digitsValue, Nat.ofDigitChars_replicate_zero, mul_zero]

/-- A number is what its digits say. -/
@[simp] theorem digitsValue_toDigits (n : Nat) : digitsValue (Nat.toDigits 10 n) = n :=
  Nat.ofDigitChars_ten_toDigits

/-- So many digits say less than that power of ten. -/
theorem digitsValue_lt (h : AllDigits cs) : digitsValue cs < 10 ^ cs.length := by
  induction cs using List.reverseRecOn with
  | nil => simp
  | append_singleton cs c ih =>
    obtain ⟨hcs, hc⟩ := allDigits_append.mp h
    have hv := ih hcs
    have hd := digitValue_lt (allDigits_cons.mp hc).1
    rw [digitsValue_concat, List.length_append, List.length_singleton, pow_succ]
    omega

/-- A leading digit other than zero makes the value as large as the length says. -/
theorem le_digitsValue_cons (hc : c.isDigit = true) (hzero : c ≠ '0') (cs : List Char) :
    10 ^ cs.length ≤ digitsValue (c :: cs) := by
  have hpos : digitValue c ≠ 0 := fun h => hzero ((digitValue_eq_zero_iff hc).mp h)
  have happend : digitsValue (c :: cs) = 10 ^ cs.length * digitValue c + digitsValue cs := by
    rw [← List.singleton_append, digitsValue_append, digitsValue_singleton]
  have hmul : 10 ^ cs.length * 1 ≤ 10 ^ cs.length * digitValue c :=
    Nat.mul_le_mul_left _ (by omega)
  omega

/-! ### Uniqueness -/

/-- **Uniqueness.** Strings of digits of one length and one value are the same. By induction from the
    right: the last digit is the remainder of the value. -/
theorem AllDigits.eq_of_digitsValue_eq (hcs : AllDigits cs) (hds : AllDigits ds)
    (hlength : cs.length = ds.length) (hvalue : digitsValue cs = digitsValue ds) : cs = ds := by
  induction cs using List.reverseRecOn generalizing ds with
  | nil => exact (List.length_eq_zero_iff.mp hlength.symm).symm
  | append_singleton cs c ih =>
    induction ds using List.reverseRecOn with
    | nil => simp at hlength
    | append_singleton ds d _ =>
      obtain ⟨hcs, hc⟩ := allDigits_append.mp hcs
      obtain ⟨hds, hd⟩ := allDigits_append.mp hds
      have hc : c.isDigit = true := (allDigits_cons.mp hc).1
      have hd : d.isDigit = true := (allDigits_cons.mp hd).1
      have hcv := digitValue_lt hc
      have hdv := digitValue_lt hd
      rw [digitsValue_concat, digitsValue_concat] at hvalue
      -- the last digit is the remainder on division by ten, and the others are the quotient
      have hlast : digitValue c = digitValue d := by omega
      have hinit : cs = ds := ih hcs hds (by simpa using hlength) (by omega)
      rw [hinit, ← digitChar_digitValue hc, hlast, digitChar_digitValue hd]

/-- A string of digits as numbers are written: not empty, and with a leading zero only if it is
    zero. -/
structure IsWhole (cs : List Char) : Prop where
  allDigits : AllDigits cs
  ne_nil : cs ≠ []
  leading : cs.head? = some '0' → cs = ['0']

/-- Zero is the only whole part that begins with `0`. -/
theorem isWhole_zero : IsWhole ['0'] :=
  ⟨by simp, by simp, fun _ => rfl⟩

/-- Any digits may follow another one. -/
theorem isWhole_cons (hc : c.isDigit = true) (hzero : c ≠ '0') (hcs : AllDigits cs) :
    IsWhole (c :: cs) := by
  refine ⟨allDigits_cons.mpr ⟨hc, hcs⟩, List.cons_ne_nil c cs, ?_⟩
  intro hhead
  exact absurd (Option.some.inj hhead) hzero

/-- A whole is zero or begins with another digit. -/
theorem IsWhole.eq_zero_or (h : IsWhole cs) :
    cs = ['0'] ∨ ∃ c ds, cs = c :: ds ∧ c.isDigit = true ∧ c ≠ '0' ∧ AllDigits ds := by
  obtain ⟨hdigits, hne, hlead⟩ := h
  cases cs with
  | nil => exact absurd rfl hne
  | cons c ds =>
    obtain ⟨hc, hds⟩ := allDigits_cons.mp hdigits
    by_cases hzero : c = '0'
    · exact .inl (hlead (by rw [hzero, List.head?_cons]))
    · exact .inr ⟨c, ds, rfl, hc, hzero, hds⟩

/-- The length of a written number is how many digits its value takes. -/
theorem length_toDigits_digitsValue (h : IsWhole cs) :
    (Nat.toDigits 10 (digitsValue cs)).length = cs.length := by
  rcases h.eq_zero_or with rfl | ⟨c, ds, rfl, hc, hzero, hds⟩
  · rfl
  · have hlow := le_digitsValue_cons hc hzero ds
    have hhigh := digitsValue_lt h.allDigits
    have hpos : 0 < (Nat.toDigits 10 (digitsValue (c :: ds))).length := Nat.length_toDigits_pos
    rw [List.length_cons] at hhigh ⊢
    apply Nat.le_antisymm
    · exact (Nat.length_toDigits_le_iff (by omega) (by omega)).mpr hhigh
    · -- a shorter string would have a smaller value
      by_contra hlt
      have hshort : digitsValue (c :: ds) < 10 ^ ds.length :=
        (Nat.length_toDigits_le_iff (by omega) (by omega)).mp (by omega)
      omega

/-- A string of digits without leading zeros is what its value is written as. -/
theorem toDigits_digitsValue (h : IsWhole cs) : Nat.toDigits 10 (digitsValue cs) = cs :=
  (allDigits_toDigits _).eq_of_digitsValue_eq h.allDigits (length_toDigits_digitsValue h)
    (digitsValue_toDigits _)

/-- Numbers are written without leading zeros. -/
theorem isWhole_toDigits (n : Nat) : IsWhole (Nat.toDigits 10 n) := by
  refine ⟨allDigits_toDigits n, Nat.toDigits_ne_nil, ?_⟩
  intro hhead
  cases hdigits : Nat.toDigits 10 n with
  | nil => exact absurd hdigits Nat.toDigits_ne_nil
  | cons c ds =>
    rw [hdigits, List.head?_cons, Option.some.injEq] at hhead
    subst hhead
    -- the zero adds nothing to the value, which is then too small for the length
    have hds : AllDigits ds := by
      have hall := allDigits_toDigits n
      rw [hdigits] at hall
      exact (allDigits_cons.mp hall).2
    have hvalue : digitsValue ds = n := by
      have happend := digitsValue_append ['0'] ds
      rw [List.singleton_append, ← hdigits, digitsValue_toDigits] at happend
      simpa [digitsValue_singleton, digitValue] using happend.symm
    have hlt := digitsValue_lt hds
    rw [hvalue] at hlt
    cases ds with
    | nil => rfl
    | cons d ds =>
      have hlen := (Nat.length_toDigits_le_iff (by omega) (by simp)).mpr hlt
      rw [hdigits] at hlen
      simp at hlen

/-- Any string of digits is what its value is written as, with zeros in front. -/
theorem replicate_append_toDigits (h : AllDigits cs) (hne : cs ≠ []) :
    (Nat.toDigits 10 (digitsValue cs)).length ≤ cs.length ∧
      List.replicate (cs.length - (Nat.toDigits 10 (digitsValue cs)).length) '0' ++
        Nat.toDigits 10 (digitsValue cs) = cs := by
  have hlen : (Nat.toDigits 10 (digitsValue cs)).length ≤ cs.length :=
    (Nat.length_toDigits_le_iff (by omega) (List.length_pos_iff.mpr hne)).mpr (digitsValue_lt h)
  refine ⟨hlen, AllDigits.eq_of_digitsValue_eq ?_ h ?_ ?_⟩
  · exact allDigits_append.mpr ⟨allDigits_replicate_zero _, allDigits_toDigits _⟩
  · rw [List.length_append, List.length_replicate]
    omega
  · rw [digitsValue_append, digitsValue_replicate_zero, digitsValue_toDigits, mul_zero, zero_add]

/-- Every number that is small enough has a string of digits of a given length. -/
theorem exists_digits (h : n < 10 ^ scale) :
    ∃ cs, AllDigits cs ∧ cs.length = scale ∧ digitsValue cs = n := by
  induction scale generalizing n with
  | zero => exact ⟨[], allDigits_nil, rfl, by simp at h; simp [h]⟩
  | succ scale ih =>
    rw [pow_succ] at h
    -- the last digit is the remainder on division by ten
    obtain ⟨cs, hcs, hlength, hvalue⟩ := ih (n := n / 10) (by omega)
    have hlast : digitValue (Nat.digitChar (n % 10)) = n % 10 :=
      Nat.toNat_digitChar_sub_48_of_lt_ten (by omega)
    have hdigit : (Nat.digitChar (n % 10)).isDigit = true := by
      rw [Nat.isDigit_digitChar]
      exact decide_eq_true (by omega)
    refine ⟨cs ++ [Nat.digitChar (n % 10)], ?_, by simp [hlength], ?_⟩
    · exact allDigits_append.mpr ⟨hcs, allDigits_cons.mpr ⟨hdigit, allDigits_nil⟩⟩
    · rw [digitsValue_concat, hvalue, hlast]
      omega

end LispObjects.Decimal
