import LispObjects.Proofs.Heap.Equality

namespace LispObjects.Heap

/-!
# Sharing and equality

The comparison of values takes a pair to be equal to itself without looking into it.  That agrees
with comparing the halves all the way down exactly as long as there is no NaN in the pair, as NaN is
the only atom that differs from itself.

* `Heap.Matches` — equality without the shortcut: only what pairs hold counts, not which pairs they are;
* `Heap.Copies` — the same contents in other pairs, wherever in the value and however many of them;
* `Heap.matches_iff` — what is equal also matches if and only if it holds no NaN;
* `Heap.comparesContents` — where there is no NaN in one of the two values, equality is `Matches`, and
  a copy is as good as the value it was made from;
* `Heap.copy_ne_original` — a list of one NaN is equal to itself and not to its copy.
-/

variable {h : Heap} {a a' b v x : Value} {r : Ref .pair}

/-! ### Plain comparison -/

/-- Pairs match if their halves do, other values if they are equal as atoms. -/
inductive Matches (h : Heap) : Value → Value → Prop where
  | halves {r s : Ref .pair} (car : h.Matches (h.car r) (h.car s))
      (cdr : h.Matches (h.cdr r) (h.cdr s)) : h.Matches (.pair r) (.pair s)
  | atom {a b : Value} (hab : a.atomEq b = true) : h.Matches a b

/-- There is no NaN in the value. -/
def NaNFree (h : Heap) (v : Value) : Prop :=
  ∀ x, h.Within x v → x.isNaN = false

/-- A pair is without NaN if both halves are. -/
theorem naNFree_pair_iff : h.NaNFree (.pair r) ↔ h.NaNFree (h.car r) ∧ h.NaNFree (h.cdr r) := by
  constructor
  · intro hr
    exact ⟨fun x hx => hr x (within_pair_iff.mpr (.inr (.inl hx))),
      fun x hx => hr x (within_pair_iff.mpr (.inr (.inr hx)))⟩
  · rintro ⟨hcar, hcdr⟩ x hx
    obtain rfl | hx | hx := within_pair_iff.mp hx
    · rfl
    · exact hcar x hx
    · exact hcdr x hx

/-- Any other value is if it is not NaN. -/
theorem naNFree_iff_of_ne_pair (hv : ∀ r, v ≠ .pair r) : h.NaNFree v ↔ v.isNaN = false := by
  constructor
  · exact fun hnan => hnan v .refl
  · intro hnan x hx
    rw [(within_iff_of_ne_pair hv).mp hx, hnan]

/-- What matches is equal. -/
theorem Matches.equals (hab : h.Matches a b) : h.Equals a b := by
  induction hab with
  | halves _ _ hcar hcdr => exact .halves hcar hcdr
  | atom hab => exact .atom hab

/-- What matches anything holds no NaN. -/
theorem Matches.naNFree (hab : h.Matches a b) : h.NaNFree a := by
  induction hab with
  | halves _ _ hcar hcdr => exact naNFree_pair_iff.mpr ⟨hcar, hcdr⟩
  | @atom a b hab =>
    have hpair : ∀ r, a ≠ .pair r := by
      rintro r rfl
      exact absurd hab (by simp)
    have hself : a.atomEq a = true := (Value.atomEq_congr hab a).trans (Value.atomEq_symm hab)
    rw [Value.atomEq_self hpair, Bool.not_eq_true'] at hself
    exact (naNFree_iff_of_ne_pair hpair).mpr hself

/-- A finite value that holds no NaN matches itself. -/
theorem Matches.refl (hv : h.IsFinite v) (hnan : h.NaNFree v) : h.Matches v v := by
  induction hv with
  | intro v _ ih =>
    by_cases hpair : ∃ r, v = .pair r
    · obtain ⟨r, rfl⟩ := hpair
      obtain ⟨hcar, hcdr⟩ := naNFree_pair_iff.mp hnan
      exact .halves (ih _ (.car r) hcar) (ih _ (.cdr r) hcdr)
    · have hpair : ∀ r, v ≠ .pair r := fun r hr => hpair ⟨r, hr⟩
      refine .atom ?_
      rw [Value.atomEq_self hpair, hnan v .refl]
      rfl

/-- Related values match, if one of them holds no NaN: then so do the pairs that they share. -/
theorem Equals.matches (hab : h.Equals a b) (ha : h.IsFinite a)
    (hnan : h.NaNFree a ∨ h.NaNFree b) : h.Matches a b := by
  induction hab with
  | same r =>
    -- the shortcut is right about this pair, as it matches itself
    exact .refl ha (hnan.elim id id)
  | halves _ _ ihcar ihcdr =>
    simp only [naNFree_pair_iff] at hnan
    obtain ⟨hcar, hcdr⟩ := isFinite_pair_iff.mp ha
    exact .halves (ihcar hcar (hnan.imp And.left And.left))
      (ihcdr hcdr (hnan.imp And.right And.right))
  | atom hab => exact .atom hab

/-- **The shortcut.** Of finite values, those match that are equal and hold no NaN. -/
theorem matches_iff (ha : h.IsFinite a) : h.Matches a b ↔ h.equal a b = true ∧ h.NaNFree a := by
  rw [equal_eq_true_iff ha]
  constructor
  · exact fun hab => ⟨hab.equals, hab.naNFree⟩
  · exact fun ⟨hab, hnan⟩ => hab.matches ha (.inl hnan)

/-- Where one side is without NaN the comparison says yes for a match and for nothing else. -/
theorem equal_eq_true_iff_matches (ha : h.IsFinite a) (hnan : h.NaNFree a ∨ h.NaNFree b) :
    h.equal a b = true ↔ h.Matches a b := by
  rw [equal_eq_true_iff ha]
  exact ⟨fun hab => hab.matches ha hnan, Matches.equals⟩

/-! ### Copies -/

/-- The value `a'` is `a`, or a pair whose halves are copies of those of the pair `a`. -/
inductive Copies (h : Heap) : Value → Value → Prop where
  | same (a : Value) : h.Copies a a
  | pair {r' r : Ref .pair} (car : h.Copies (h.car r') (h.car r))
      (cdr : h.Copies (h.cdr r') (h.cdr r)) : h.Copies (.pair r') (.pair r)

/-- A copy of a finite value is finite. -/
theorem Copies.isFinite (hcopies : h.Copies a' a) (ha : h.IsFinite a) : h.IsFinite a' := by
  induction hcopies with
  | same a => exact ha
  | pair _ _ ihcar ihcdr =>
    obtain ⟨hcar, hcdr⟩ := isFinite_pair_iff.mp ha
    exact isFinite_pair_iff.mpr ⟨ihcar hcar, ihcdr hcdr⟩

/-- A copy of a value without NaN has none either. -/
theorem Copies.naNFree (hcopies : h.Copies a' a) (ha : h.NaNFree a) : h.NaNFree a' := by
  induction hcopies with
  | same a => exact ha
  | pair _ _ ihcar ihcdr =>
    obtain ⟨hcar, hcdr⟩ := naNFree_pair_iff.mp ha
    exact naNFree_pair_iff.mpr ⟨ihcar hcar, ihcdr hcdr⟩

/-- Pairs match half by half, the same one with itself as well. -/
theorem matches_pair_pair_iff {s : Ref .pair} :
    h.Matches (.pair r) (.pair s) ↔
      h.Matches (h.car r) (h.car s) ∧ h.Matches (h.cdr r) (h.cdr s) := by
  constructor
  · intro hab
    cases hab with
    | halves hcar hcdr => exact ⟨hcar, hcdr⟩
    | atom hab => exact absurd hab (by simp)
  · exact fun ⟨hcar, hcdr⟩ => .halves hcar hcdr

/-- Which pairs hold the contents makes no difference to what matches. -/
theorem Copies.matches_iff (hcopies : h.Copies a' a) (b : Value) :
    h.Matches a' b ↔ h.Matches a b := by
  induction hcopies generalizing b with
  | same a => rfl
  | @pair r' r _ _ ihcar ihcdr =>
    by_cases hpair : ∃ s, b = .pair s
    · obtain ⟨s, rfl⟩ := hpair
      rw [matches_pair_pair_iff, matches_pair_pair_iff, ihcar, ihcdr]
    · -- no pair matches an atom
      have hnot : ∀ r, ¬ h.Matches (.pair r) b := by
        intro r hab
        cases hab with
        | halves => exact hpair ⟨_, rfl⟩
        | atom hab => exact absurd hab (by simp)
      exact iff_of_false (hnot r') (hnot r)

/-! ### Values without NaN -/

/-- Equality as a comparison of contents, as far as it is one. -/
structure ComparesContents (h : Heap) : Prop where
  /-- Equal values match if and only if there is no NaN in them, and values that are not equal never
  match. -/
  plain {a b : Value} (ha : h.IsFinite a) (hb : h.IsFinite b) :
    h.Matches a b ↔ h.equal a b = true ∧ h.NaNFree a
  /-- If one of two values holds no NaN, a copy of the first is equal to the second exactly if the
  first is. -/
  copies {a a' b : Value} (ha : h.IsFinite a) (hb : h.IsFinite b) (hcopies : h.Copies a' a)
    (hnan : h.NaNFree a ∨ h.NaNFree b) : h.equal a' b = h.equal a b

/-- **Contents.** Pairs are compared by what they hold, as long as that is not NaN. -/
theorem comparesContents (h : Heap) : h.ComparesContents where
  plain ha _ := matches_iff ha
  copies {a a' b} ha _ hcopies hnan := by
    have hnan' : h.NaNFree a' ∨ h.NaNFree b := hnan.imp_left hcopies.naNFree
    have hequal := equal_eq_true_iff_matches ha hnan
    have hequal' := equal_eq_true_iff_matches (hcopies.isFinite ha) hnan'
    rw [Bool.eq_iff_iff, hequal', hequal, hcopies.matches_iff]

/-- A number of the host's that is not a number. -/
def quietNaN : Value :=
  .host (.number ⟨0x7ff8000000000000⟩)

/-- A heap in which two lists were made, each of the same NaN. -/
def twoNaNLists : Heap :=
  ((empty.cons quietNaN .nil).2.cons quietNaN .nil).2

/-- The second list is a copy of the first, which is equal to itself and not to its copy. -/
theorem copy_ne_original :
    twoNaNLists.IsFinite (.pair ⟨0⟩) ∧
      twoNaNLists.Copies (.pair ⟨1⟩) (.pair ⟨0⟩) ∧
        twoNaNLists.equal (.pair ⟨0⟩) (.pair ⟨0⟩) = true ∧
          twoNaNLists.equal (.pair ⟨1⟩) (.pair ⟨0⟩) = false := by
  have hnan : ∀ r, quietNaN ≠ .pair r := by simp [quietNaN]
  have hnil : ∀ r, Value.nil ≠ .pair r := by simp
  have hfinite : twoNaNLists.IsFinite (.pair ⟨0⟩) :=
    isFinite_pair_iff.mpr ⟨isFinite_of_ne_pair hnan, isFinite_of_ne_pair hnil⟩
  have hcopies : twoNaNLists.Copies (.pair ⟨1⟩) (.pair ⟨0⟩) := .pair (.same _) (.same _)
  refine ⟨hfinite, hcopies, equal_self _ _, Bool.eq_false_iff.mpr fun hequal => ?_⟩
  -- the pairs differ, and the NaN in the one is not equal to the NaN in the other
  rw [equal_eq_true_iff (hcopies.isFinite hfinite), equals_pair_iff] at hequal
  obtain hsame | ⟨hcar, -⟩ := hequal
  · exact absurd hsame (by decide)
  · have hcar : twoNaNLists.Equals quietNaN quietNaN := hcar
    rw [equals_atom_iff (fun r _ hr _ => hnan r hr), Value.atomEq_self hnan] at hcar
    exact absurd hcar (by decide)

end LispObjects.Heap
