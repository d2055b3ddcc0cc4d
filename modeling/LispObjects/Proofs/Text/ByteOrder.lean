import LispObjects.Text.Utf8
import Mathlib.Algebra.Order.Ring.Nat
import Mathlib.Data.String.Basic

namespace LispObjects.Text.Utf8

/-!
# The order of bytes and the order of code points

Texts are ordered alike by their UTF-8 bytes and by their characters' code points: the first byte of a
character tells how many bytes follow, more of them for greater code points, and each of those carries
the next six bits.

* `encodeChar_eq` — a character as a first byte and continuation bytes, by the number of the latter;
* `compare_encodeChar_append` — the lesser of two characters comes first, whatever follows them;
* `compare_encode` — the order of bytes is the order of code points;
* `compare_string` — so it is the order of strings.
-/

variable {c d : Char} {cs ds : List Char} {bs bs' : List UInt8} {k m n : Nat}

/-! ### Characters as bytes -/

/-- How many bytes follow the first byte of a character with the code point. -/
def followers (n : Nat) : Nat :=
  if n ≤ 0x7F then 0 else if n ≤ 0x7FF then 1 else if n ≤ 0xFFFF then 2 else 3

/-- The mark in a first byte that so many bytes follow. -/
def mark : Nat → Nat
  | 0 => 0
  | 1 => 0xC0
  | 2 => 0xE0
  | _ => 0xF0

/-- The last `k` continuation bytes of a code point, with six bits each. -/
def continuation : Nat → Nat → List UInt8
  | 0, _ => []
  | k + 1, n => .ofNat (n / 64 ^ k % 64 + 0x80) :: continuation k n

/-- Code points end before `0x110000`. -/
theorem toNat_lt (c : Char) : c.toNat < 0x110000 := by
  have hvalid : c.toNat < 0xD800 ∨ 0xDFFF < c.toNat ∧ c.toNat < 0x110000 := c.valid
  omega

/-- The first byte has the leading bits, and the others have the rest. -/
theorem encodeChar_eq (c : Char) :
    encodeChar c = .ofNat (c.toNat / 64 ^ followers c.toNat + mark (followers c.toNat)) ::
      continuation (followers c.toNat) c.toNat := by
  have hmax := toNat_lt c
  have hvalue : c.val.toNat = c.toNat := rfl
  simp only [encodeChar, String.utf8EncodeChar, hvalue]
  -- one case for each length of an encoding
  by_cases h₁ : c.toNat ≤ 0x7F
  · simp [followers, h₁, mark, continuation]
  by_cases h₂ : c.toNat ≤ 0x7FF
  · have hlead : c.toNat / 64 % 32 = c.toNat / 64 := Nat.mod_eq_of_lt (by omega)
    simp [followers, h₁, h₂, mark, continuation, hlead]
  by_cases h₃ : c.toNat ≤ 0xFFFF
  · have hlead : c.toNat / 4096 % 16 = c.toNat / 4096 := Nat.mod_eq_of_lt (by omega)
    simp [followers, h₁, h₂, h₃, mark, continuation, hlead]
  · have hlead : c.toNat / 262144 % 8 = c.toNat / 262144 := Nat.mod_eq_of_lt (by omega)
    simp [followers, h₁, h₂, h₃, mark, continuation, hlead]

/-! ### Bytes -/

/-- Bytes compare as the numbers that they are. -/
theorem compare_ofNat (hm : m < 256) (hn : n < 256) :
    compare (UInt8.ofNat m) (UInt8.ofNat n) = compare m n := by
  have hm' : (UInt8.ofNat m).toNat = m := UInt8.toNat_ofNat_of_lt' hm
  have hn' : (UInt8.ofNat n).toNat = n := UInt8.toNat_ofNat_of_lt' hn
  rcases Nat.lt_trichotomy m n with h | rfl | h
  · rw [Nat.compare_eq_lt.mpr h, Std.compare_eq_lt, UInt8.lt_iff_toNat_lt, hm', hn']
    exact h
  · rw [Nat.compare_eq_eq.mpr rfl, Std.compare_eq_iff_eq]
  · rw [Nat.compare_eq_gt.mpr h, Std.compare_eq_gt, UInt8.lt_iff_toNat_lt, hm', hn']
    exact h

/-- Of two code points that agree but for the last continuation bytes, the lesser has the lesser ones. -/
theorem compare_continuation_append (hlead : m / 64 ^ k = n / 64 ^ k) (h : m < n)
    (bs bs' : List UInt8) :
    compare (continuation k m ++ bs) (continuation k n ++ bs') = .lt := by
  induction k with
  | zero =>
    rw [pow_zero, Nat.div_one, Nat.div_one] at hlead
    omega
  | succ k ih =>
    rw [pow_succ, ← Nat.div_div_eq_div_mul, ← Nat.div_div_eq_div_mul] at hlead
    have hle : m / 64 ^ k ≤ n / 64 ^ k := Nat.div_le_div_right h.le
    simp only [continuation, List.cons_append, List.compare_cons_cons]
    rw [compare_ofNat (by omega) (by omega)]
    -- the next six bits decide, unless they agree too
    by_cases hnext : m / 64 ^ k = n / 64 ^ k
    · rw [hnext, Nat.compare_eq_eq.mpr rfl, ih hnext]
      rfl
    · rw [Nat.compare_eq_lt.mpr (by omega)]
      rfl

/-- More bytes follow a greater code point, or its first byte has as great a number. -/
theorem lead_lt_or_eq (h : m < n) (hn : n < 0x110000) :
    m / 64 ^ followers m + mark (followers m) < n / 64 ^ followers n + mark (followers n) ∨
      followers m = followers n ∧ m / 64 ^ followers m = n / 64 ^ followers m := by
  simp only [followers, mark]
  split_ifs <;> simp <;> omega

/-- The first byte of an encoding is a byte. -/
theorem lead_lt (hn : n < 0x110000) : n / 64 ^ followers n + mark (followers n) < 256 := by
  simp only [followers, mark]
  split_ifs <;> simp <;> omega

/-! ### Characters and texts -/

/-- **Characters.** The lesser one comes first in the order of bytes. -/
theorem compare_encodeChar_append (h : c.toNat < d.toNat) (bs bs' : List UInt8) :
    compare (encodeChar c ++ bs) (encodeChar d ++ bs') = .lt := by
  have hc := toNat_lt c
  have hd := toNat_lt d
  rw [encodeChar_eq, encodeChar_eq, List.cons_append, List.cons_append, List.compare_cons_cons,
    compare_ofNat (lead_lt hc) (lead_lt hd)]
  rcases lead_lt_or_eq h hd with hlead | ⟨hfollowers, hlead⟩
  · rw [Nat.compare_eq_lt.mpr hlead]
    rfl
  · rw [← hfollowers, hlead, Nat.compare_eq_eq.mpr rfl, compare_continuation_append hlead h]
    rfl

/-- What begins alike is ordered by what follows. -/
theorem compare_append_left (as bs bs' : List UInt8) :
    compare (as ++ bs) (as ++ bs') = compare bs bs' := by
  induction as with
  | nil => rfl
  | cons a as ih =>
    rw [List.cons_append, List.cons_append, List.compare_cons_cons,
      Std.compare_eq_iff_eq.mpr rfl, ih]
    rfl

/-- **Texts.** The order of their bytes is the order of their code points. -/
theorem compare_encode (cs ds : List Char) :
    compare (encode cs) (encode ds) = compare (cs.map Char.toNat) (ds.map Char.toNat) := by
  induction cs generalizing ds with
  | nil =>
    cases ds with
    | nil => rfl
    | cons d ds => rw [encode_cons, encodeChar_eq]; rfl
  | cons c cs ih =>
    cases ds with
    | nil => rw [encode_cons, encodeChar_eq]; rfl
    | cons d ds =>
      simp only [encode_cons, List.map_cons, List.compare_cons_cons]
      -- the first characters that differ decide, and their encodings differ in the same way
      rcases Nat.lt_trichotomy c.toNat d.toNat with h | h | h
      · rw [compare_encodeChar_append h, Nat.compare_eq_lt.mpr h]
        rfl
      · rw [Char.toNat_inj.mp h, compare_append_left, ih, Nat.compare_eq_eq.mpr rfl]
        rfl
      · rw [Std.OrientedOrd.eq_swap, compare_encodeChar_append h, Nat.compare_eq_gt.mpr h]
        rfl

/-! ### Strings -/

/-- The order on texts is that of their code points. -/
theorem lt_iff_compare_codePoints (cs ds : List Char) :
    cs < ds ↔ compare (cs.map Char.toNat) (ds.map Char.toNat) = .lt := by
  induction cs generalizing ds with
  | nil => cases ds <;> simp [List.compare_nil_cons]
  | cons c cs ih =>
    cases ds with
    | nil => simp [List.compare_cons_nil]
    | cons d ds =>
      rw [List.cons_lt_cons_iff, ih, List.map_cons, List.map_cons, List.compare_cons_cons,
        Ordering.then_eq_lt, Nat.compare_eq_lt, Nat.compare_eq_eq, Char.toNat_inj]
      rfl

/-- **Strings.** They are ordered by their code points, one after the other. -/
theorem compare_string (s t : String) :
    compare s t = compare (s.toList.map Char.toNat) (t.toList.map Char.toNat) := by
  have hlt : ∀ s t : String,
      s < t ↔ compare (s.toList.map Char.toNat) (t.toList.map Char.toNat) = .lt := by
    intro s t
    rw [String.lt_iff_toList_lt, lt_iff_compare_codePoints]
  rcases lt_trichotomy s t with h | rfl | h
  · rw [compare_lt_iff_lt.mpr h, (hlt s t).mp h]
  · rw [compare_eq_iff_eq.mpr rfl, Std.compare_eq_iff_eq.mpr rfl]
  · rw [compare_gt_iff_gt.mpr h, Std.OrientedOrd.eq_swap, (hlt t s).mp h]
    rfl

end LispObjects.Text.Utf8
