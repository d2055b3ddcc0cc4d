import LispObjects.Proofs.Action.RealmStep
import LispObjects.Proofs.Action.Slots

namespace LispObjects

/-!
# The pairs that an operation stores

A slot is written through a realm, or stored in a condition that was just made.  A condition keeps the
keys as they are given: a keyword is not replaced there by the variable symbol of its name, so the pair
is lost to those who read the slot.

* `Realm.reportPairs` — the pairs of the condition that reports a fault;
* `Operation.newCondition?` — the condition that an operation makes, with its pairs;
* `Operation.storedPairs` — all that an operation stores, under the keys that it is given;
* `Operation.newCondition?_cases`, `Operation.exists_base_of_newCondition?` — how a condition is made, and
  that it is a new object with its pairs in it;
* `Operation.loses`, `Operation.lost_iff` — what is lost is what the making of a condition is given under
  keywords.
-/

variable {image after : Image} {op : Operation} {r : Realm} {h heap : Heap} {f : Fault}
  {c : Condition} {classId : ClassId} {message : String} {pairs slots : List (Symbol × Value)}
  {u : Write .slots} {o : StandardObject}

/-! ### Conditions -/

/-- The pairs of the condition that reports a fault: the wording, and the data of the fault. -/
def Realm.reportPairs (r : Realm) (h : Heap) (f : Fault) : List (Symbol × Value) :=
  (r.names.message, .string (r.faultMessage f)) :: (r.faultSlots h f).1

namespace Operation

/-- The condition that the operation makes, if it makes one, with the pairs that are stored in it.
    Whatever fails makes one. -/
def newCondition? (image : Image) (op : Operation) :
    Option (Condition × List (Symbol × Value)) :=
  match op.action.runOn image with
  | (.error f, after) =>
    some ((after.realm.report f after.heap).1, after.realm.reportPairs after.heap f)
  | (.ok answer, _) =>
    match op, answer with
    | report f, .condition c => some (c, image.realm.reportPairs image.heap f)
    | makeCondition _ message slots, .condition c =>
      some (c, (image.realm.names.message, .string message) :: slots)
    | _, _ => none

/-- The object that the operation makes: a condition, a bare object, an instance or a dynamic
    variable. -/
def newObject? (image : Image) (op : Operation) : Option StandardObject :=
  match op.newCondition? image with
  | some (c, _) => some c.object
  | none =>
    match op, (image.perform op).1 with
    | newObject _, .ok (.value (.object o)) => some o
    | _, _ => op.madeObject? image

/-! ### Pairs -/

/-- All that the operation stores in slots, under the keys as they are given. -/
def storedPairs (image : Image) (op : Operation) : List (Write .slots) :=
  match op.newCondition? image with
  | some (c, pairs) => pairs.map fun p => ⟨c.object.slots, p.1, p.2⟩
  | none => op.slotWrites image

/-- Whether what the operation stores under the key is lost. -/
def loses (image : Image) (op : Operation) (key : Symbol) : Bool :=
  (op.newCondition? image).isSome && key.isKeyword

end Operation

/-! ### Reports -/

namespace Realm

/-- The data of a fault is stored under names of the realm. -/
theorem find?_of_mem_faultSlots (hn : r.names.FoundIn r.symbols) (h : Heap) (f : Fault) :
    ∀ p ∈ (r.faultSlots h f).1, ∃ name, r.symbols.find? name .vars = some p.1 := by
  -- every slot of a fault is named by one of the names that a realm interns when it is made
  cases f with
  | wrongType datum expected =>
    exact List.forall_mem_cons.mpr
      ⟨⟨_, hn.datum⟩, List.forall_mem_singleton.mpr ⟨_, hn.expectedType⟩⟩
  | unboundSymbol symbol environment =>
    exact List.forall_mem_cons.mpr
      ⟨⟨_, hn.symbol⟩, List.forall_mem_singleton.mpr ⟨_, hn.environment⟩⟩
  | unboundSlot object slot =>
    exact List.forall_mem_cons.mpr
      ⟨⟨_, hn.object⟩, List.forall_mem_singleton.mpr ⟨_, hn.slotName⟩⟩
  | unboundMethod classId method =>
    exact List.forall_mem_cons.mpr
      ⟨⟨_, hn.classSlot⟩, List.forall_mem_singleton.mpr ⟨_, hn.methodName⟩⟩
  | noMatch datum => exact List.forall_mem_singleton.mpr ⟨_, hn.datum⟩
  | stream stream message => exact List.forall_mem_singleton.mpr ⟨_, hn.stream⟩
  | insideCharacter stream => exact List.forall_mem_singleton.mpr ⟨_, hn.stream⟩
  | notJustRead stream => exact List.forall_mem_singleton.mpr ⟨_, hn.stream⟩
  | endOfFile stream => exact List.forall_mem_singleton.mpr ⟨_, hn.stream⟩
  | promptNotFound prompt => exact List.forall_mem_singleton.mpr ⟨_, hn.prompt⟩
  | _ => exact List.forall_mem_nil _

/-- The wording of a fault is stored under a name of the realm too. -/
theorem find?_of_mem_reportPairs (hn : r.names.FoundIn r.symbols) (h : Heap) (f : Fault) :
    ∀ p ∈ r.reportPairs h f, ∃ name, r.symbols.find? name .vars = some p.1 :=
  List.forall_mem_cons.mpr ⟨⟨_, hn.message⟩, find?_of_mem_faultSlots hn h f⟩

end Realm

namespace Operation

/-- A failed operation has not changed the slots that were there. -/
theorem sameSlots_of_error (hrun : op.action.runOn image = (.error f, after)) :
    Image.SameSlots image after := by
  by_cases hslots : Part.slots ∈ op.footprint
  · -- the operations that set a slot do it last
    have hatomic : Action.Atomic op.action := by
      refine atomic ?_ ?_ ?_
      · rintro c initializers rfl
        simp [footprint] at hslots
      · rintro name body rfl
        simp [footprint] at hslots
      · intro hbody
        cases op <;> simp_all [footprint, ReachesBody]
    rw [hatomic image f after hrun]
    exact Store.Extends.refl _
  · have hkeeps : Image.SameSlots image (op.action.runOn image).2 :=
      keeps (Image.free_sameSlots hslots) image
    rwa [hrun] at hkeeps

/-- **New conditions.** A condition is made last, in a heap in which the slots that were there are as
    they were. It reports a fault, or was asked for. -/
theorem newCondition?_cases (hc : op.newCondition? image = some (c, pairs)) :
    ∃ heap : Heap, image.heap.slots.Extends heap.slots ∧
      ((∃ f, (image.perform op).2.realm.report f heap = (c, (image.perform op).2.heap) ∧
          pairs = (image.perform op).2.realm.reportPairs heap f) ∨
        ∃ classId message slots, op = makeCondition classId message slots ∧
          image.realm.newCondition classId message slots heap =
            (c, (image.perform op).2.heap) ∧
          pairs = (image.realm.names.message, .string message) :: slots) := by
  unfold newCondition? at hc
  split at hc
  -- a fault is reported by a condition, whether the operation failed with it or signals it
  · next f after hrun =>
    cases hc
    rw [Image.perform_of_error hrun]
    exact ⟨after.heap, sameSlots_of_error hrun, .inl ⟨f, rfl, rfl⟩⟩
  · next answer after hrun =>
    split at hc
    · next f c' =>
      cases hc
      cases hrun
      exact ⟨image.heap, .refl _, .inl ⟨f, rfl, rfl⟩⟩
    · next classId message slots c' =>
      cases hc
      cases hrun
      exact ⟨image.heap, .refl _, .inr ⟨classId, message, slots, rfl, rfl, rfl⟩⟩
    · cases hc

/-- However a condition is made, it is made with its pairs. -/
theorem exists_newCondition (hc : op.newCondition? image = some (c, pairs)) :
    ∃ (r : Realm) (classId : ClassId) (message : String) (slots : List (Symbol × Value)) (heap : Heap),
      image.heap.slots.Extends heap.slots ∧
      r.newCondition classId message slots heap = (c, (image.perform op).2.heap) ∧
      pairs = (r.names.message, .string message) :: slots := by
  obtain ⟨heap, hext, ⟨f, hreport, hpairs⟩ | ⟨classId, message, slots, -, hnew, hpairs⟩⟩ :=
    newCondition?_cases hc
  · -- a report has made the data of its fault before
    exact ⟨_, f.category, _, _, _, hext.trans (heap.grows_faultSlots _ f).slots, hreport, hpairs⟩
  · exact ⟨_, classId, message, slots, heap, hext, hnew, hpairs⟩

/-- A condition is a new object, and its pairs are all that is stored. -/
theorem exists_base_of_newCondition? (hc : op.newCondition? image = some (c, pairs)) :
    ∃ base : Store .slots (Bindings Value), image.heap.slots.Extends base ∧
      (image.perform op).2.heap.slots = (op.storedPairs image).foldl Store.put base ∧
      ¬ image.heap.slots.Contains c.object.slots ∧ base.Contains c.object.slots ∧
      base.read c.object.slots = .empty := by
  obtain ⟨r, classId, message, slots, heap, hext, hnew, rfl⟩ := exists_newCondition hc
  obtain ⟨rfl, hheap⟩ := Prod.mk.inj hnew
  have hfresh := heap.slots.not_contains_alloc .empty
  refine ⟨(heap.slots.alloc .empty).2, hext.trans (.alloc _ _), ?_, fun hold => hfresh ?_,
    Store.contains_alloc_self _ _, Store.read_alloc_self _ _⟩
  · rw [storedPairs, hc, ← hheap]
    exact heap.slots_withSlots classId _
  · exact hext.contains hold

/-- Every key of a condition is a name of the realm, or was given. -/
theorem key_of_newCondition? (hr : image.realm.WellFormed)
    (hc : op.newCondition? image = some (c, pairs)) :
    ∀ p ∈ pairs, (∃ name, (image.perform op).2.realm.symbols.find? name .vars = some p.1) ∨
      ∃ classId message slots, op = makeCondition classId message slots ∧ p ∈ slots := by
  have hn : (image.perform op).2.realm.names.FoundIn (image.perform op).2.realm.symbols :=
    (Image.wellFormed_perform hr op).names
  obtain ⟨heap, -, ⟨f, -, rfl⟩ | ⟨classId, message, slots, rfl, -, rfl⟩⟩ := newCondition?_cases hc
  · exact fun p hp => .inl (Realm.find?_of_mem_reportPairs hn heap f p hp)
  · exact List.forall_mem_cons.mpr
      ⟨.inl ⟨_, hn.message⟩, fun p hp => .inr ⟨classId, message, slots, rfl, hp⟩⟩

/-- The making of a condition is given its pairs. -/
theorem newCondition?_makeCondition (image : Image) (classId : ClassId) (message : String)
    (slots : List (Symbol × Value)) :
    (makeCondition classId message slots).newCondition? image =
      some ((image.realm.newCondition classId message slots image.heap).1,
        (image.realm.names.message, .string message) :: slots) := rfl

/-- **Lost pairs** are those that the making of a condition is given under keywords. Nothing else
    loses any. -/
theorem lost_iff (hr : image.realm.WellFormed) :
    u ∈ op.storedPairs image ∧ op.loses image u.key = true ↔
      ∃ classId message slots c, op = makeCondition classId message slots ∧
        (image.perform op).1 = .ok (.condition c) ∧
        ∃ p ∈ slots, p.1.isKeyword = true ∧ u = ⟨c.object.slots, p.1, p.2⟩ := by
  rw [loses, Bool.and_eq_true]
  constructor
  · rintro ⟨hu, hsome, hkey⟩
    obtain ⟨⟨c, pairs⟩, hc⟩ := Option.isSome_iff_exists.mp hsome
    rw [storedPairs, hc] at hu
    obtain ⟨p, hp, rfl⟩ := List.mem_map.mp hu
    -- the realm's own keys are variables, so a keyword is one that was given
    rcases key_of_newCondition? hr hc p hp with ⟨name, hname⟩ | ⟨classId, message, slots, rfl, hgiven⟩
    · exact absurd hkey (SymbolTable.not_isKeyword_of_find? hname)
    · rw [newCondition?_makeCondition] at hc
      cases hc
      exact ⟨classId, message, slots, _, rfl, rfl, p, hgiven, hkey, rfl⟩
  · rintro ⟨classId, message, slots, c, rfl, hanswer, p, hp, hkey, rfl⟩
    cases hanswer
    rw [storedPairs, newCondition?_makeCondition]
    exact ⟨List.mem_map_of_mem (List.mem_cons_of_mem _ hp), rfl, hkey⟩

/-! ### Objects -/

/-- Where a condition is made, it is the object that is made. -/
theorem newObject?_of_newCondition? (hc : op.newCondition? image = some (c, pairs)) :
    op.newObject? image = some c.object := by
  unfold newObject?
  split
  · next c' pairs' hc' =>
    rw [hc'] at hc
    cases hc
    rfl
  · next hnone =>
    rw [hnone] at hc
    cases hc

/-- All the ways in which an object is made. -/
theorem newObject?_cases (ho : op.newObject? image = some o) :
    (∃ c pairs, op.newCondition? image = some (c, pairs) ∧ c.object = o) ∨
      op.madeObject? image = some o ∨
      ∃ classId, op = newObject classId ∧ o = (image.heap.newObject classId).1 := by
  unfold newObject? at ho
  split at ho
  · next c pairs hc => exact .inl ⟨c, pairs, hc, Option.some.inj ho⟩
  · next hnone =>
    split at ho
    · next classId o' hanswer =>
      cases hanswer
      exact .inr (.inr ⟨classId, rfl, (Option.some.inj ho).symm⟩)
    · exact .inr (.inl ho)

end Operation

end LispObjects
