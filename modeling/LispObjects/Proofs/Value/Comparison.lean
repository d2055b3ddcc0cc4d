import LispObjects.Proofs.Decimal.Order
import LispObjects.Proofs.Heap.Equality
import LispObjects.Proofs.Text.ByteOrder
import LispObjects.Value.Arithmetic

namespace LispObjects

/-!
# Comparing values

Numbers are compared with numbers, and texts with texts.

* `compare_of_isLE` — an order in which only equal things compare as equal is transitive;
* `Value.compare_eq_ok_iff` — what can be compared, and how it is;
* `Value.comparisonLaws` — the order of decimals, that of comparable values, and equality.
-/

/-- Two steps up lead up, and they stay in place if both do. -/
theorem compare_of_isLE {α : Type} [Ord α] [Std.TransOrd α] [Std.LawfulEqOrd α] {x y z : α}
    (hxy : (compare x y).isLE) (hyz : (compare y z).isLE) :
    compare x z = (compare x y).then (compare y z) := by
  cases h : compare x y with
  | lt =>
    rw [Std.TransCmp.lt_of_lt_of_isLE h hyz]
    rfl
  | eq =>
    rw [Std.compare_eq_iff_eq.mp h]
    rfl
  | gt =>
    rw [h] at hxy
    cases hxy

namespace Value

variable {a b c : Value} {o o' : Ordering} {h : Heap}

/-! ### What is compared -/

/-- Numbers compare by value. -/
theorem compare_number (x y : Decimal) : (number x).compare (number y) = .ok (Ord.compare x y) := rfl

/-- Strings compare as texts do. -/
theorem compare_string (s t : String) : (string s).compare (string t) = .ok (Ord.compare s t) := rfl

/-- **Comparable values** are two numbers, or two texts. -/
theorem compare_eq_ok_iff :
    a.compare b = .ok o ↔
      (∃ x y, a = number x ∧ b = number y ∧ Ord.compare x y = o) ∨
        ∃ s t, a = string s ∧ b = string t ∧ Ord.compare s t = o := by
  constructor
  · intro hab
    cases a with
    | number x =>
      cases b with
      | number y =>
        rw [compare_number, Except.ok.injEq] at hab
        exact .inl ⟨x, y, rfl, rfl, hab⟩
      | _ => cases hab
    | string s =>
      cases b with
      | string t =>
        rw [compare_string, Except.ok.injEq] at hab
        exact .inr ⟨s, t, rfl, rfl, hab⟩
      | _ => cases hab
    | _ => cases hab
  -- each kind compares with its own kind alone
  · rintro (⟨x, y, rfl, rfl, rfl⟩ | ⟨s, t, rfl, rfl, rfl⟩)
    · rfl
    · rfl

/-- In the other direction the order is the other one. -/
theorem compare_swap (hab : a.compare b = .ok o) : b.compare a = .ok o.swap := by
  rcases compare_eq_ok_iff.mp hab with ⟨x, y, rfl, rfl, rfl⟩ | ⟨s, t, rfl, rfl, rfl⟩
  · rw [compare_number, Std.OrientedOrd.eq_swap]
  · rw [compare_string, Std.OrientedOrd.eq_swap]

/-- **Transitivity.** What is no greater than something no greater is no greater, and only equal if both
    are. -/
theorem compare_trans (hab : a.compare b = .ok o) (hbc : b.compare c = .ok o') (ho : o.isLE)
    (ho' : o'.isLE) : a.compare c = .ok (o.then o') := by
  rcases compare_eq_ok_iff.mp hab with ⟨x, y, rfl, rfl, rfl⟩ | ⟨s, t, rfl, rfl, rfl⟩
  · obtain ⟨_, z, hy, rfl, rfl⟩ | ⟨_, _, hy, -⟩ := compare_eq_ok_iff.mp hbc
    · cases hy
      rw [compare_number, compare_of_isLE ho ho']
    · cases hy
  · obtain ⟨_, _, ht, -⟩ | ⟨_, u, ht, rfl, rfl⟩ := compare_eq_ok_iff.mp hbc
    · cases ht
    · cases ht
      rw [compare_string, compare_of_isLE ho ho']

/-! ### Equality -/

/-- A value that is no pair is compared as an atom. -/
theorem equal_of_ne_pair (ha : ∀ r, a ≠ .pair r) : h.equal a b = a.atomEq b := by
  have hfinite : h.IsFinite a := Heap.isFinite_of_ne_pair ha
  rw [Bool.eq_iff_iff, Heap.equal_eq_true_iff hfinite]
  exact Heap.equals_atom_iff fun r _ hr _ => ha r hr

/-- **Equality.** Values that can be compared are equal exactly if they compare as equal. -/
theorem compare_eq_iff_equal (hab : a.compare b = .ok o) (h : Heap) :
    o = .eq ↔ h.equal a b = true := by
  rcases compare_eq_ok_iff.mp hab with ⟨x, y, rfl, rfl, rfl⟩ | ⟨s, t, rfl, rfl, rfl⟩
  · rw [equal_of_ne_pair (by simp), atomEq, beq_iff_eq, Std.compare_eq_iff_eq]
  · rw [equal_of_ne_pair (by simp), atomEq, beq_iff_eq, Std.compare_eq_iff_eq]

/-! ### What holds of comparisons -/

/-- The order of decimals and the order of values, and what is equal on a heap. -/
structure ComparisonLaws (h : Heap) : Prop where
  /-- Decimals are ordered as the rational numbers that they denote; -/
  decimal (x y : Decimal) :
    Ord.compare x y =
      Ord.compare (x.mantissa * 10 ^ (-(x.scale : ℤ)) : ℚ) (y.mantissa * 10 ^ (-(y.scale : ℤ)))
  /-- so their order is total. -/
  decimal_total (x y : Decimal) : (Ord.compare x y).isLE ∨ (Ord.compare y x).isLE
  decimal_trans (x y z : Decimal) :
    (Ord.compare x y).isLE → (Ord.compare y z).isLE → (Ord.compare x z).isLE
  decimal_antisymm (x y : Decimal) : (Ord.compare x y).isLE → (Ord.compare y x).isLE → x = y
  decimal_eq_iff (x y : Decimal) : Ord.compare x y = .eq ↔ x = y
  /-- Two numbers can be compared, and two texts, and nothing else. -/
  exists_ok_iff (a b : Value) :
    (∃ o, a.compare b = .ok o) ↔
      (∃ x y, a = number x ∧ b = number y) ∨ ∃ s t, a = string s ∧ b = string t
  numbers (x y : Decimal) : (number x).compare (number y) = .ok (Ord.compare x.toRat y.toRat)
  /-- Texts are ordered by the bytes of their UTF-8 encoding, -/
  bytes (s t : String) :
    (string s).compare (string t) =
      .ok (Ord.compare (Text.Utf8.encode s.toList) (Text.Utf8.encode t.toList))
  /-- which is the order of the code points of their characters. -/
  codePoints (s t : String) :
    (string s).compare (string t) =
      .ok (Ord.compare (s.toList.map Char.toNat) (t.toList.map Char.toNat))
  swap (a b : Value) (o : Ordering) : a.compare b = .ok o → b.compare a = .ok o.swap
  trans (a b c : Value) (o o' : Ordering) : a.compare b = .ok o → b.compare c = .ok o' → o.isLE →
    o'.isLE → a.compare c = .ok (o.then o')
  eq_iff (a b : Value) (o : Ordering) : a.compare b = .ok o → (o = .eq ↔ h.equal a b = true)

/-- **Comparisons.** All of it holds on every heap. -/
theorem comparisonLaws (h : Heap) : ComparisonLaws h where
  decimal := Decimal.compare_eq_compare_toRat
  decimal_total x y := by
    have hswap : Ord.compare y x = (Ord.compare x y).swap := Std.OrientedOrd.eq_swap
    rw [hswap]
    cases Ord.compare x y with
    | lt => exact .inl rfl
    | eq => exact .inl rfl
    | gt => exact .inr rfl
  decimal_trans x y z := Std.TransCmp.isLE_trans
  decimal_antisymm x y hxy hyx :=
    Std.compare_eq_iff_eq.mp (Std.OrientedCmp.isLE_antisymm hxy hyx)
  decimal_eq_iff x y := Std.compare_eq_iff_eq
  -- two numbers or two strings, which is what the success of a comparison is made of
  exists_ok_iff a b := by
    simp only [compare_eq_ok_iff]
    constructor
    · rintro ⟨o, ⟨x, y, ha, hb, -⟩ | ⟨s, t, ha, hb, -⟩⟩
      · exact .inl ⟨x, y, ha, hb⟩
      · exact .inr ⟨s, t, ha, hb⟩
    · rintro (⟨x, y, ha, hb⟩ | ⟨s, t, ha, hb⟩)
      · exact ⟨_, .inl ⟨x, y, ha, hb, rfl⟩⟩
      · exact ⟨_, .inr ⟨s, t, ha, hb, rfl⟩⟩
  numbers x y := by rw [compare_number, Decimal.compare_eq_compare_toRat]
  bytes s t := by rw [compare_string, Text.Utf8.compare_string, Text.Utf8.compare_encode]
  codePoints s t := by rw [compare_string, Text.Utf8.compare_string]
  swap a b o := compare_swap
  trans a b c o o' := compare_trans
  eq_iff a b o hab := compare_eq_iff_equal hab h

end Value

end LispObjects
