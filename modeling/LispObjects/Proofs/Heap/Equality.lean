import LispObjects.Heap.Equality
import LispObjects.Proofs.Heap.Finite

namespace LispObjects

/-!
# What equality decides

The comparison of two values works off a stack of pending pairs, and does not look into a pair that
it holds in both hands.  On values that do not contain themselves it ends, and its answer is that of
a relation that goes into pairs by recursion.

* `Heap.Equals` — the relation, and `Heap.equals_iff`, its recursion;
* `Heap.Settles` — the steps of the comparison come to an answer;
* `Heap.Equals.settles`, `Heap.settles_of_not_equals` — what is on top of the stack is taken off if it
  is related, and ends the comparison if it is not;
* `Heap.equalityLaws` — the comparison decides the relation, which is symmetric and transitive, and
  which relates to itself every value that holds no NaN.
-/

/-! ### Atoms -/

namespace Binary64

variable {x y : Binary64}

/-- Equality of host numbers is symmetric. -/
theorem numericEq_symm (h : x.numericEq y = true) : y.numericEq x = true := by
  simp only [numericEq, Bool.and_eq_true, Bool.or_eq_true, Bool.not_eq_true', beq_iff_eq] at h ⊢
  obtain ⟨⟨hx, hy⟩, hxy | ⟨hzero, hzero'⟩⟩ := h
  · exact ⟨⟨hy, hx⟩, .inl hxy.symm⟩
  · exact ⟨⟨hy, hx⟩, .inr ⟨hzero', hzero⟩⟩

/-- Equal numbers are equal to the same numbers. -/
theorem numericEq_congr (h : x.numericEq y = true) (z : Binary64) :
    x.numericEq z = y.numericEq z := by
  simp only [numericEq, Bool.and_eq_true, Bool.or_eq_true, Bool.not_eq_true', beq_iff_eq] at h
  obtain ⟨⟨hx, hy⟩, rfl | ⟨hzero, hzero'⟩⟩ := h
  · rfl
  · -- a zero is equal to the zeros and to nothing else
    have hself : ∀ w : Binary64, w.isZero = true → (w == z || z.isZero) = z.isZero := by
      intro w hw
      by_cases hwz : w = z
      · rw [← hwz, hw, Bool.or_true]
      · rw [beq_eq_false_iff_ne.mpr hwz, Bool.false_or]
    simp [numericEq, hx, hy, hzero, hzero', hself]

/-- Only NaN differs from itself. -/
theorem numericEq_self (x : Binary64) : x.numericEq x = !x.isNaN := by
  simp [numericEq]

end Binary64

namespace HostValue

variable {a b : HostValue}

/-- Values of the host that are not both numbers are equal if they are the same. -/
theorem eq_of_strictEq (h : a.strictEq b = true)
    (hnumber : ∀ x y, a = .number x → b = .number y → False) : a = b := by
  cases a <;> cases b <;> simp_all [strictEq]

/-- Equality of host values is symmetric. -/
theorem strictEq_symm (h : a.strictEq b = true) : b.strictEq a = true := by
  fun_cases strictEq a b
  case case1 x y => exact Binary64.numericEq_symm h
  case case2 hnumber =>
    obtain rfl := eq_of_strictEq h hnumber
    exact h

/-- Equal host values compare alike with any other. -/
theorem strictEq_congr (h : a.strictEq b = true) (c : HostValue) :
    a.strictEq c = b.strictEq c := by
  fun_cases strictEq a b
  case case1 x y =>
    cases c with
    | number z => exact Binary64.numericEq_congr h z
    | _ => rfl
  case case2 hnumber => rw [eq_of_strictEq h hnumber]

end HostValue

namespace Value

variable {a b : Value}

/-- Whether the value is a number of the host's that is not a number. -/
def isNaN : Value → Bool
  | host (.number x) => x.isNaN
  | _ => false

/-- A pair is no atom. -/
@[simp] theorem pair_atomEq (r : Ref .pair) (b : Value) : (pair r).atomEq b = false := by
  cases b <;> rfl

/-- Nor is anything equal to a pair as an atom. -/
@[simp] theorem atomEq_pair (a : Value) (r : Ref .pair) : a.atomEq (pair r) = false := by
  cases a <;> rfl

/-- Equality of values other than pairs is symmetric. -/
theorem atomEq_symm (h : a.atomEq b = true) : b.atomEq a = true := by
  fun_cases atomEq a b
  case case1 x y => exact HostValue.strictEq_symm h
  case case17 => exact absurd h (by simp [atomEq, *])
  all_goals
    simp only [atomEq, Environment.same, beq_iff_eq] at h ⊢
    first | exact h.symm | skip

/-- Equal atoms are equal to the same atoms. -/
theorem atomEq_congr (h : a.atomEq b = true) (c : Value) : a.atomEq c = b.atomEq c := by
  fun_cases atomEq a b
  case case1 x y =>
    cases c with
    | host z => exact HostValue.strictEq_congr h z
    | _ => rfl
  case case17 =>
    exfalso
    simp_all [atomEq]
  all_goals
    simp only [atomEq, Environment.same, beq_iff_eq] at h
    cases c <;> simp [atomEq, Environment.same, h]

/-- An atom is equal to itself if and only if it is not NaN. -/
theorem atomEq_self (hpair : ∀ r, a ≠ pair r) : a.atomEq a = !a.isNaN := by
  cases a with
  | pair r => exact absurd rfl (hpair r)
  | host x =>
    cases x with
    | number x => exact x.numericEq_self
    | _ => simp [atomEq, HostValue.strictEq, isNaN]
  | _ => simp [atomEq, Environment.same, isNaN]

end Value

namespace Heap

variable {h : Heap} {a b c v : Value} {pending : List (Value × Value)} {answer : Bool}

/-! ### The relation -/

/-- Two pairs are equal if they are the same one, or if their halves are; other values are equal as
`Value.atomEq` has it, which no two pairs are. -/
inductive Equals (h : Heap) : Value → Value → Prop where
  | same (r : Ref .pair) : h.Equals (.pair r) (.pair r)
  | halves {r s : Ref .pair} (car : h.Equals (h.car r) (h.car s))
      (cdr : h.Equals (h.cdr r) (h.cdr s)) : h.Equals (.pair r) (.pair s)
  | atom {a b : Value} (hab : a.atomEq b = true) : h.Equals a b

/-- Two pairs are equal if they are one pair, or half by half. -/
theorem equals_pair_iff {r s : Ref .pair} :
    h.Equals (.pair r) (.pair s) ↔
      r = s ∨ h.Equals (h.car r) (h.car s) ∧ h.Equals (h.cdr r) (h.cdr s) := by
  constructor
  · intro hab
    cases hab with
    | same => exact .inl rfl
    | halves hcar hcdr => exact .inr ⟨hcar, hcdr⟩
    | atom hab => exact absurd hab (by simp)
  · rintro (rfl | ⟨hcar, hcdr⟩)
    · exact .same r
    · exact .halves hcar hcdr

/-- Unless both values are pairs they are compared as atoms. -/
theorem equals_atom_iff (hpairs : ∀ r s, a = .pair r → b = .pair s → False) :
    h.Equals a b ↔ a.atomEq b = true := by
  constructor
  · intro hab
    cases hab with
    | same r => exact (hpairs r r rfl rfl).elim
    | halves => exact (hpairs _ _ rfl rfl).elim
    | atom hab => exact hab
  · exact .atom

/-- **Recursion.** The three ways to be equal. -/
theorem equals_iff :
    h.Equals a b ↔
      (∃ r, a = .pair r ∧ b = .pair r) ∨
        (∃ r s, a = .pair r ∧ b = .pair s ∧
          h.Equals (h.car r) (h.car s) ∧ h.Equals (h.cdr r) (h.cdr s)) ∨
        (∀ r s, a = .pair r → b = .pair s → False) ∧ a.atomEq b = true := by
  -- two pairs, or two values that are not both pairs
  by_cases hpairs : ∃ r s, a = .pair r ∧ b = .pair s
  · obtain ⟨r, s, rfl, rfl⟩ := hpairs
    constructor
    · intro hab
      obtain rfl | hhalves := equals_pair_iff.mp hab
      · exact .inl ⟨r, rfl, rfl⟩
      · exact .inr (.inl ⟨r, s, rfl, rfl, hhalves⟩)
    · rintro (⟨_, ⟨⟩, ⟨⟩⟩ | ⟨_, _, ⟨⟩, ⟨⟩, hcar, hcdr⟩ | ⟨hatom, -⟩)
      · exact .same r
      · exact .halves hcar hcdr
      · exact (hatom r s rfl rfl).elim
  · have hatom : ∀ r s, a = .pair r → b = .pair s → False :=
      fun r s ha hb => hpairs ⟨r, s, ha, hb⟩
    rw [equals_atom_iff hatom]
    constructor
    · exact fun hab => .inr (.inr ⟨hatom, hab⟩)
    · rintro (⟨r, ha, hb⟩ | ⟨r, s, ha, hb, -⟩ | ⟨-, hab⟩)
      · exact (hatom r r ha hb).elim
      · exact (hatom r s ha hb).elim
      · exact hab

/-- Equality is symmetric. -/
theorem Equals.symm (hab : h.Equals a b) : h.Equals b a := by
  induction hab with
  | same r => exact .same r
  | halves _ _ hcar hcdr => exact .halves hcar hcdr
  | atom hab => exact .atom (Value.atomEq_symm hab)

/-- It is transitive: halves are equal through the halves of the pair between. -/
theorem Equals.trans (hab : h.Equals a b) (hbc : h.Equals b c) : h.Equals a c := by
  induction hab generalizing c with
  | same r => exact hbc
  | @halves r s hcar hcdr ihcar ihcdr =>
    -- what is equal to a pair is a pair
    cases hbc with
    | same => exact .halves hcar hcdr
    | halves hcar' hcdr' => exact .halves (ihcar hcar') (ihcdr hcdr')
    | atom hbc => exact absurd hbc (by simp)
  | atom hab =>
    cases hbc with
    | same => exact .atom hab
    | halves => exact absurd hab (by simp)
    | atom hbc => exact .atom ((Value.atomEq_congr hab c).trans hbc)

/-- It is reflexive but for NaN. -/
theorem Equals.refl (hnan : v.isNaN = false) : h.Equals v v := by
  cases v with
  | pair r => exact .same r
  | _ => exact .atom (by rw [Value.atomEq_self (by simp), hnan]; rfl)

/-! ### The comparison -/

/-- The steps of the comparison of the pending pairs come to the answer. -/
inductive Settles (h : Heap) : List (Value × Value) → Bool → Prop where
  | last {pending : List (Value × Value)} {answer : Bool}
      (hstep : h.compareStep pending = .inr answer) : h.Settles pending answer
  | next {pending rest : List (Value × Value)} {answer : Bool}
      (hstep : h.compareStep pending = .inl rest) (hrest : h.Settles rest answer) :
      h.Settles pending answer

/-- The comparison goes on with its steps as long as there is no answer. -/
theorem equalPending_eq (h : Heap) (pending : List (Value × Value)) :
    h.equalPending pending =
      match h.compareStep pending with
      | .inl rest => h.equalPending rest
      | .inr answer => answer := by
  rw [equalPending, repeatM_eq_of_monadTail, repeatM.body, pure_bind]
  cases h.compareStep pending <;> rfl

/-- What settles is what the loop answers. -/
theorem Settles.equalPending (hsettles : h.Settles pending answer) :
    h.equalPending pending = answer := by
  induction hsettles with
  | last hstep => rw [equalPending_eq, hstep]
  | next hstep _ ih =>
    rw [equalPending_eq, hstep]
    exact ih

/-- Where nothing is pending everything was equal. -/
theorem settles_nil : h.Settles [] true :=
  .last rfl

/-- Two values that are not both pairs are dropped if they are equal, and else end the comparison. -/
theorem compareStep_atom (hatom : ∀ r s, a = .pair r → b = .pair s → False) :
    h.compareStep ((a, b) :: pending) = if a.atomEq b then .inl pending else .inr false := by
  rw [compareStep]
  exact hatom

/-- A pair against itself is dropped without a look at its halves. -/
theorem Settles.same (hpending : h.Settles pending answer) (r : Ref .pair) :
    h.Settles ((.pair r, .pair r) :: pending) answer :=
  .next (by rw [compareStep, if_pos rfl]) hpending

/-- Two different pairs leave their halves to be compared, the first ones first. -/
theorem Settles.halves {r s : Ref .pair} (hrs : r ≠ s)
    (hhalves : h.Settles ((h.car r, h.car s) :: (h.cdr r, h.cdr s) :: pending) answer) :
    h.Settles ((.pair r, .pair s) :: pending) answer :=
  .next (by rw [compareStep, if_neg hrs]) hhalves

/-- Values that are related are taken off the stack, however much their pairs put on it meanwhile. -/
theorem Equals.settles (hab : h.Equals a b) (hpending : h.Settles pending answer) :
    h.Settles ((a, b) :: pending) answer := by
  -- on the relation, for any stack below: the halves are worked off with the rest of it waiting
  induction hab generalizing pending with
  | same r => exact hpending.same r
  | @halves r s _ _ ihcar ihcdr =>
    by_cases hrs : r = s
    · rw [hrs]
      exact hpending.same s
    · exact .halves hrs (ihcar (ihcdr hpending))
  | @atom a b hab =>
    have hatom : ∀ r s, a = .pair r → b = .pair s → False := by
      rintro r s rfl rfl
      exact absurd hab (by simp)
    exact .next (by rw [compareStep_atom hatom, if_pos hab]) hpending

/-- Values that are not related end the comparison, if the first of them is finite. -/
theorem settles_of_not_equals (ha : h.IsFinite a) (hab : ¬ h.Equals a b)
    (pending : List (Value × Value)) : h.Settles ((a, b) :: pending) false := by
  induction ha generalizing b pending with
  | intro a _ ih =>
    by_cases hpairs : ∃ r s, a = .pair r ∧ b = .pair s
    · obtain ⟨r, s, rfl, rfl⟩ := hpairs
      have hrs : r ≠ s := fun hrs => hab (equals_pair_iff.mpr (.inl hrs))
      refine .halves hrs ?_
      -- the first halves are compared to the end before the others
      by_cases hcar : h.Equals (h.car r) (h.car s)
      · have hcdr : ¬ h.Equals (h.cdr r) (h.cdr s) := fun hcdr => hab (.halves hcar hcdr)
        exact hcar.settles (ih _ (.cdr r) hcdr pending)
      · exact ih _ (.car r) hcar _
    · have hatom : ∀ r s, a = .pair r → b = .pair s → False :=
        fun r s ha hb => hpairs ⟨r, s, ha, hb⟩
      rw [equals_atom_iff hatom] at hab
      exact .last (by rw [compareStep_atom hatom, if_neg hab])

/-- **Related values are equal**, also if they contain themselves. -/
theorem equal_of_equals (hab : h.Equals a b) : h.equal a b = true :=
  (hab.settles settles_nil).equalPending

/-- **Deciding.** The comparison of finite values ends, and finds out whether they are related. -/
theorem settles_decide (ha : h.IsFinite a) (b : Value) [Decidable (h.Equals a b)] :
    h.Settles [(a, b)] (decide (h.Equals a b)) := by
  by_cases hab : h.Equals a b
  · rw [decide_eq_true hab]
    exact hab.settles settles_nil
  · rw [decide_eq_false hab]
    exact settles_of_not_equals ha hab []

/-- The comparison says yes exactly where values are equal, if the first of them is finite. -/
theorem equal_eq_true_iff (ha : h.IsFinite a) : h.equal a b = true ↔ h.Equals a b := by
  classical
  rw [equal, (settles_decide ha b).equalPending, decide_eq_true_eq]

/-- A value is equal to itself if and only if it is not NaN. -/
theorem equal_self (h : Heap) (v : Value) : h.equal v v = !v.isNaN := by
  cases hnan : v.isNaN with
  | false => exact equal_of_equals (.refl hnan)
  | true =>
    have hatom : ∀ r, v ≠ .pair r := by
      rintro r rfl
      cases hnan
    have hself : v.atomEq v = false := by rw [Value.atomEq_self hatom, hnan, Bool.not_true]
    have hstep : h.compareStep [(v, v)] = .inr false := by
      rw [compareStep_atom (fun r _ hr _ => hatom r hr), hself, if_neg Bool.false_ne_true]
    exact (Settles.last hstep).equalPending

/-- What equality is, on a heap. -/
structure EqualityLaws (h : Heap) : Prop where
  /-- On finite values the comparison ends, with whether they are related. -/
  decides {a b : Value} (ha : h.IsFinite a) (hb : h.IsFinite b) :
    ∃ answer, h.Settles [(a, b)] answer ∧ h.equal a b = answer ∧ (answer = true ↔ h.Equals a b)
  /-- Values are related if they are the same pair, or pairs whose halves are related, or related as
  atoms. -/
  recursion (a b : Value) :
    h.Equals a b ↔
      (∃ r, a = .pair r ∧ b = .pair r) ∨
        (∃ r s, a = .pair r ∧ b = .pair s ∧
          h.Equals (h.car r) (h.car s) ∧ h.Equals (h.cdr r) (h.cdr s)) ∨
        (∀ r s, a = .pair r → b = .pair s → False) ∧ a.atomEq b = true
  symm {a b : Value} : h.Equals a b → h.Equals b a
  trans {a b c : Value} : h.Equals a b → h.Equals b c → h.Equals a c
  /-- A value that holds no NaN is equal to itself. -/
  self {v : Value} (hnan : ∀ x, h.Within x v → x.isNaN = false) : h.equal v v = true

/-- **Equality.** The comparison of finite values ends, however deep and long they are and whatever
they share, and its answer is the relation given by recursion.  The relation is symmetric and
transitive, and holds of a value and itself if there is no NaN in it. -/
theorem equalityLaws (h : Heap) : h.EqualityLaws where
  decides {a b} ha _ := by
    classical
    have hsettles := settles_decide ha b
    exact ⟨decide (h.Equals a b), hsettles, hsettles.equalPending, decide_eq_true_iff⟩
  recursion _ _ := equals_iff
  symm := Equals.symm
  trans := Equals.trans
  self {v} hnan := by rw [equal_self, hnan v .refl, Bool.not_false]

end Heap

end LispObjects
