import LispObjects.Proofs.Action.Footprint

namespace LispObjects

/-!
# What operations do to pairs

Two operations replace a half of a pair that is there.  All others leave it as it is.

* `Operation.Sets` — the operation replaces a half of the pair;
* `Heap.KeepsPair` — the pair is there and is as it was;
* `Image.keepsPair_perform` — so it is after any other operation.
-/

variable {op : Operation} {p : Ref .pair}

/-- The operation replaces a half of the pair. -/
def Operation.Sets (p : Ref .pair) : Operation → Prop
  | setCar q _ | setCdr q _ => q = p
  | _ => False

/-- The pair is there and holds the same halves. -/
def Heap.KeepsPair (h h' : Heap) (p : Ref .pair) : Prop :=
  h'.pairs.Contains p ∧ h'.pairs.read p = h.pairs.read p

/-- A pair that is kept twice is kept. -/
theorem Heap.KeepsPair.trans {h h' h'' : Heap} (hkept : h.KeepsPair h' p) (hkept' : h'.KeepsPair h'' p) :
    h.KeepsPair h'' p :=
  ⟨hkept'.1, hkept'.2.trans hkept.2⟩

/-- Pairs that are there stay as they are. -/
def Image.SamePairs (image after : Image) : Prop :=
  image.heap.pairs.Extends after.heap.pairs

instance : ImageFrame Image.SamePairs where
  refl _ := .refl _
  trans _ _ _ h h' := Store.Extends.trans h h'
  intern _ _ _ := .refl _
  grows _ _ h := h.pairs
  inputs _ _ := .refl _
  outputs _ _ := .refl _
  nextIdentity _ _ := .refl _

/-- Class graphs, frames and slots are no pairs. -/
theorem Part.free_samePairs {part : Part} (h : part ≠ .pairs) : part.Free Image.SamePairs := by
  cases part with
  | classes => exact fun _ _ => Store.Extends.refl _
  | frames => exact fun _ _ => Store.Extends.refl _
  | slots => exact fun _ _ => Store.Extends.refl _
  | pairs => exact absurd rfl h

/-- A pair is as it was after another one was written. -/
theorem Store.Contains.keepsPair_write {h : Heap} {q : Ref .pair} (hp : h.pairs.Contains p) (hne : q ≠ p)
    (pair : Pair) : h.KeepsPair { h with pairs := h.pairs.write q pair } p := by
  refine ⟨Store.contains_write.mpr hp, ?_⟩
  show (h.pairs.write q pair).read p = h.pairs.read p
  by_cases hq : h.pairs.Contains q
  · rw [Store.read_write hq, if_neg hne.symm]
  · rw [Store.write_of_not_contains hq]

/-- **Pairs** that are there are changed by the two operations only, whether or not an operation fails. -/
theorem Image.keepsPair_perform (image : Image) (hp : image.heap.pairs.Contains p) (hop : ¬ op.Sets p) :
    image.heap.KeepsPair (image.perform op).2.heap p := by
  by_cases hpairs : Part.pairs ∈ op.footprint
  · cases op
    case setCar q v => exact hp.keepsPair_write hop _
    case setCdr q v => exact hp.keepsPair_write hop _
    all_goals simp [Operation.footprint] at hpairs
  · have hfree : ∀ part ∈ op.footprint, part.Free SamePairs := fun part hpart =>
      Part.free_samePairs fun heq => hpairs (heq ▸ hpart)
    have hext : image.heap.pairs.Extends (image.perform op).2.heap.pairs := perform_keeps hfree image
    exact ⟨hext.contains hp, hext.read_eq p hp⟩

end LispObjects
