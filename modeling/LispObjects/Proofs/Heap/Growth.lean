import LispObjects.Realm.Condition

namespace LispObjects

/-!
# Growth of a heap

A heap grows if pairs and objects are added and nothing that was there before changes.  Data and
conditions are made this way.

* `Store.Extends` — the cells that were there hold what they held;
* `Heap.Grows` — so it is with the pairs and the objects, and environments and streams are the same;
* `Heap.grows_report` — reporting a fault only makes the heap grow.
-/

/-! ### Stores -/

namespace Store

variable {kind : CellKind} {α : Type} {s s' s'' : Store kind α} {r : Ref kind}

/-- A cell that is made was not there before. -/
theorem not_contains_alloc (s : Store kind α) (a : α) : ¬ s.Contains (s.alloc a).1 :=
  Nat.lt_irrefl _

/-- A reference that leads nowhere writes nothing. -/
theorem write_of_not_contains (hr : ¬ s.Contains r) (a : α) : s.write r a = s := by
  have hbound : ¬ r.index < s.cells.size := hr
  rw [write, Array.setIfInBounds, dif_neg hbound]

variable [Inhabited α]

/-- The cells that were in the store are there, and hold what they held. -/
structure Extends (s s' : Store kind α) : Prop where
  size_le : s.size ≤ s'.size
  read_eq : ∀ r, s.Contains r → s'.read r = s.read r

namespace Extends

/-- A store extends itself. -/
theorem refl (s : Store kind α) : s.Extends s :=
  ⟨Nat.le_refl _, fun _ _ => rfl⟩

/-- A cell that is there stays. -/
theorem contains (h : s.Extends s') (hr : s.Contains r) : s'.Contains r :=
  Nat.lt_of_lt_of_le hr h.size_le

/-- Extensions of extensions are extensions. -/
theorem trans (h : s.Extends s') (h' : s'.Extends s'') : s.Extends s'' := by
  refine ⟨Nat.le_trans h.size_le h'.size_le, ?_⟩
  intro r hr
  rw [h'.read_eq r (h.contains hr), h.read_eq r hr]

/-- A new cell is added at the end. -/
theorem alloc (s : Store kind α) (a : α) : s.Extends (s.alloc a).2 := by
  refine ⟨?_, fun r hr => read_alloc hr a⟩
  rw [size_alloc]
  omega

/-- A cell that was not there before may be written. -/
theorem write (h : s.Extends s') (hr : ¬ s.Contains r) (a : α) : s.Extends (s'.write r a) := by
  refine ⟨?_, ?_⟩
  · rw [size_write]
    exact h.size_le
  · intro t ht
    have hne : t ≠ r := fun heq => hr (heq ▸ ht)
    by_cases hnew : s'.Contains r
    · rw [read_write hnew, if_neg hne, h.read_eq t ht]
    · rw [write_of_not_contains hnew, h.read_eq t ht]

end Extends

end Store

/-! ### Heaps -/

namespace Heap

variable {h h' h'' : Heap} {r : Realm}

/-- Pairs and objects may have been added; all else is as it was. -/
structure Grows (h h' : Heap) : Prop where
  pairs : h.pairs.Extends h'.pairs
  slots : h.slots.Extends h'.slots
  frames : h'.frames = h.frames
  inputs : h'.inputs = h.inputs
  outputs : h'.outputs = h.outputs
  nextIdentity : h'.nextIdentity = h.nextIdentity

/-- A heap to which nothing is added. -/
theorem Grows.refl (h : Heap) : h.Grows h :=
  ⟨.refl _, .refl _, rfl, rfl, rfl, rfl⟩

/-- Growing twice is growing, store by store. -/
theorem Grows.trans (hgrows : h.Grows h') (hgrows' : h'.Grows h'') : h.Grows h'' where
  pairs := hgrows.pairs.trans hgrows'.pairs
  slots := hgrows.slots.trans hgrows'.slots
  frames := hgrows'.frames.trans hgrows.frames
  inputs := hgrows'.inputs.trans hgrows.inputs
  outputs := hgrows'.outputs.trans hgrows.outputs
  nextIdentity := hgrows'.nextIdentity.trans hgrows.nextIdentity

/-- A pair is made in a new cell. -/
theorem grows_cons (h : Heap) (car cdr : Value) : h.Grows (h.cons car cdr).2 :=
  ⟨.alloc _ _, .refl _, rfl, rfl, rfl, rfl⟩

/-- A list is made in new cells, one for each item. -/
theorem grows_chain (h : Heap) (items : List Value) (tail : Value) :
    h.Grows (h.chain items tail).2 := by
  unfold chain
  induction items with
  | nil => exact .refl h
  | cons item items ih => exact ih.trans (grows_cons _ _ _)

/-! ### Type specifications as data -/

mutual

/-- The data for a specification is made of new pairs. -/
theorem grows_specData (r : Realm) : ∀ (spec : TypeSpec) (h : Heap), h.Grows (r.specData spec h).2
  | .any, h => .refl h
  | .null, h => .refl h
  | .tag _, h => .refl h
  | .ofClass _, h => .refl h
  | .oneOf members, h => (grows_specDataList r members h).trans (grows_chain _ _ _)

/-- The data for several specifications is made of new pairs, one after the other. -/
theorem grows_specDataList (r : Realm) :
    ∀ (specs : List TypeSpec) (h : Heap), h.Grows (r.specDataList specs h).2
  | [], h => .refl h
  | spec :: rest, h => (grows_specData r spec h).trans (grows_specDataList r rest _)

end

/-! ### Conditions -/

/-- The slots of an object that was not there before may be set. -/
theorem Grows.setSlots (hgrows : h.Grows h') {o : StandardObject} (ho : ¬ h.slots.Contains o.slots)
    (slots : List (Symbol × Value)) :
    h.Grows (slots.foldl (fun h slot => h.setSlot o slot.1 slot.2) h') := by
  induction slots generalizing h' with
  | nil => exact hgrows
  | cons slot slots ih => exact ih { hgrows with slots := hgrows.slots.write ho _ }

/-- A new object may be given slots. -/
theorem grows_withSlots (h : Heap) (c : ClassId) (slots : List (Symbol × Value)) :
    h.Grows (slots.foldl (fun h' slot => h'.setSlot (h.newObject c).1 slot.1 slot.2)
      (h.newObject c).2) := by
  have hnew : h.Grows (h.newObject c).2 := ⟨.refl _, .alloc _ _, rfl, rfl, rfl, rfl⟩
  have hobject : ¬ h.slots.Contains (h.newObject c).1.slots := h.slots.not_contains_alloc .empty
  exact hnew.setSlots hobject slots

/-- A condition is a new object with slots of its own. -/
theorem grows_newCondition (r : Realm) (c : ClassId) (message : String)
    (slots : List (Symbol × Value)) (h : Heap) : h.Grows (r.newCondition c message slots h).2 :=
  h.grows_withSlots c ((r.names.message, .string message) :: slots)

/-- What a fault has to say may be data of a specification, or what is there already. -/
theorem grows_faultSlots (r : Realm) (h : Heap) (f : Fault) : h.Grows (r.faultSlots h f).2 := by
  cases f with
  | wrongType datum expected => exact grows_specData r expected h
  | _ => exact .refl h

/-- **Reports.** The condition is a new object, and so are the pairs of its data. -/
theorem grows_report (r : Realm) (f : Fault) (h : Heap) : h.Grows (r.report f h).2 :=
  (grows_faultSlots r h f).trans (grows_newCondition r _ _ _ _)

end Heap

end LispObjects
