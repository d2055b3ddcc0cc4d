import LispObjects.Proofs.Heap.Finite

namespace LispObjects.Heap

/-!
# Walks along chains

A walk goes from a pair to its second half and passes its first half.  It may stop anywhere, but the
elements of a list are those of the walk that goes on to the end.

* `Heap.Passes` — what a walk passes, and where it stops;
* `Heap.Passes.unique` — there is only one walk to the end;
* `Heap.elements_eq_ok_iff`, `Heap.elements_eq_error_iff` — when a chain is read as a list, and what is
  blamed when it is not;
* `Heap.Passes.element_eq_ok`, `Heap.Passes.element_eq_error` — the item at an index is one that a walk
  passes, or there is none.
-/

variable {h : Heap} {v x tail tail' : Value} {items items' : List Value} {r : Ref .pair} {f : Fault}

/-- From `v` a walk passes the items, one for each pair, and stops at `tail`. -/
inductive Passes (h : Heap) : Value → List Value → Value → Prop where
  | stop (v : Value) : h.Passes v [] v
  | step (r : Ref .pair) {items : List Value} {tail : Value} :
    h.Passes (h.cdr r) items tail → h.Passes (.pair r) (h.car r :: items) tail

/-- The spine is a walk. -/
theorem passes_spineUpTo (h : Heap) (count : Nat) (v : Value) :
    h.Passes v (h.spineUpTo count v).1 (h.spineUpTo count v).2 := by
  induction count generalizing v with
  | zero => exact .stop v
  | succ count ih =>
    cases v with
    | pair r => exact .step r (ih (h.cdr r))
    | _ => exact .stop _

/-- A chain is walked along. -/
theorem IsChain.passes (hchain : h.IsChain v items tail) : h.Passes v items tail := by
  induction items generalizing v with
  | nil =>
    obtain rfl : v = tail := hchain
    exact .stop v
  | cons item items ih =>
    obtain ⟨p, rfl, -, rfl, hrest⟩ := hchain
    exact .step p (ih hrest)

/-- **Walks to the end** pass the same items and end in the same value. -/
theorem Passes.unique (hpass : h.Passes v items tail) (hpass' : h.Passes v items' tail')
    (htail : ∀ q, tail ≠ .pair q) (htail' : ∀ q, tail' ≠ .pair q) : items = items' ∧ tail = tail' := by
  induction hpass generalizing items' with
  | stop v =>
    cases hpass' with
    | stop => exact ⟨rfl, rfl⟩
    | step r => exact absurd rfl (htail r)
  | step r _ ih =>
    cases hpass' with
    | stop => exact absurd rfl (htail' r)
    | step _ hrest =>
      obtain ⟨rfl, rfl⟩ := ih hrest htail
      exact ⟨rfl, rfl⟩

/-- The items that a walk passes are held by the value that it begins with. -/
theorem Passes.within (hpass : h.Passes v items tail) (hx : x ∈ items) : h.Within x v := by
  induction hpass with
  | stop => cases hx
  | step r _ ih =>
    rcases List.mem_cons.mp hx with rfl | hx
    · exact within_pair_iff.mpr (.inr (.inl .refl))
    · exact within_pair_iff.mpr (.inr (.inr (ih hx)))

/-- The spine of a chain that ends is the walk to the end. -/
theorem spine_eq_iff (hends : h.ChainEnds v) :
    h.spine v = (items, tail) ↔ h.Passes v items tail ∧ ∀ q, tail ≠ .pair q := by
  have hspine : h.Passes v (h.spine v).1 (h.spine v).2 := h.passes_spineUpTo _ v
  have hend := spine_snd_ne_pair hends
  constructor
  · intro heq
    rw [heq] at hspine hend
    exact ⟨hspine, hend⟩
  · rintro ⟨hpass, htail⟩
    obtain ⟨hitems, hsnd⟩ := hspine.unique hpass hend htail
    exact Prod.ext hitems hsnd

/-- **Lists.** A chain that ends is read as a list if it ends in `nil`. -/
theorem elements_eq_ok_iff (hends : h.ChainEnds v) :
    h.elements v = .ok items ↔ h.Passes v items .nil := by
  constructor
  · intro hread
    rw [elements] at hread
    split at hread
    · next cars hspine =>
      cases hread
      exact ((spine_eq_iff hends).mp hspine).1
    · cases hread
  · intro hpass
    rw [elements, (spine_eq_iff hends).mpr ⟨hpass, by simp⟩]

/-- **No lists.** A chain that ends in anything else is blamed for what it ends in. -/
theorem elements_eq_error_iff (hends : h.ChainEnds v) :
    h.elements v = .error f ↔
      ∃ items tail, h.Passes v items tail ∧ (∀ q, tail ≠ .pair q) ∧ tail ≠ .nil ∧
        f = .notA .list tail := by
  constructor
  · intro hread
    rw [elements] at hread
    split at hread
    · cases hread
    · next cars tail hnil hspine =>
      cases hread
      obtain ⟨hpass, htail⟩ := (spine_eq_iff hends).mp hspine
      exact ⟨cars, tail, hpass, htail, hnil, rfl⟩
  · rintro ⟨items, tail, hpass, htail, hnil, rfl⟩
    rw [elements, (spine_eq_iff hends).mpr ⟨hpass, htail⟩]
    -- the walk ends at a value that is neither a pair nor `nil`, and that is what is blamed
    cases tail with
    | nil => exact absurd rfl hnil
    | _ => rfl

/-! ### Items by index -/

variable {n : Nat}

/-- **Items.** Wherever a walk ends, the item at an index is the one that the walk passes there. -/
theorem Passes.element_eq_ok (hpass : h.Passes v items tail) (hx : items[n]? = some x) :
    h.element v n = .ok x := by
  induction hpass generalizing n with
  | stop => cases hx
  | step r _ ih =>
    cases n with
    | zero =>
      cases hx
      rfl
    | succ n => exact ih hx

/-- Behind the last item the end of the chain is blamed for being no pair. -/
theorem Passes.element_eq_error (hpass : h.Passes v items tail) (htail : ∀ q, tail ≠ .pair q)
    (hn : items.length ≤ n) : h.element v n = .error (.notA .cons tail) := by
  induction hpass generalizing n with
  | stop v =>
    cases v with
    | pair r => exact absurd rfl (htail r)
    | _ => cases n <;> rfl
  | step r _ ih =>
    rw [List.length_cons] at hn
    obtain ⟨n, rfl⟩ := Nat.exists_eq_add_one_of_ne_zero (Nat.ne_zero_of_lt hn)
    exact ih htail (Nat.le_of_succ_le_succ hn)

end LispObjects.Heap
