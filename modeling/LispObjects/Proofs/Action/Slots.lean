import LispObjects.Proofs.Action.Failure
import LispObjects.Proofs.Action.Footprint
import LispObjects.Proofs.Heap.Frames
import LispObjects.Proofs.Realm.Report
import LispObjects.Proofs.Realm.WellFormed

namespace LispObjects

/-!
# The slots that an operation writes

Four operations write slots through a realm: making an instance, making a dynamic variable, and setting
a slot or the value of a dynamic variable.  A keyword is replaced by the variable symbol of its name
before anything is stored.

* `Realm.slotSymbol` — the symbol that is stored for a key;
* `Operation.slotWrites` — the writes of an operation, under the keys that it is given;
* `Operation.madeObject?` — the object that an operation makes for its caller;
* `Image.exists_slotStep` — in a store in which new objects have been added the writes are all that
  happens to the slots.
-/

variable {image after : Image} {op : Operation} {r r' : Realm} {key : Symbol} {v : Value}
  {c : ClassId} {initializers : List Value} {slots : List (Symbol × Value)} {o : StandardObject}

/-! ### Keys -/

/-- The symbol that is stored for a key: for a keyword the variable of the same name. -/
def Realm.slotSymbol (r : Realm) (key : Symbol) : Symbol :=
  if key.isKeyword then (r.symbols.intern key.name .vars).1 else key

/-- If the key is a keyword, the variable of its name is a symbol of the realm. -/
def Realm.HasVariable (r : Realm) (key : Symbol) : Prop :=
  key.isKeyword = true → ∃ s, r.symbols.find? key.name .vars = some s

/-- A write under the symbol that is stored. -/
def Realm.stored (r : Realm) (w : Write .slots) : Write .slots :=
  { w with key := r.slotSymbol w.key }

namespace Realm

/-- A symbol that is no keyword names its own slot. -/
theorem slotSymbol_of_not_isKeyword (h : ¬ key.isKeyword = true) (r : Realm) :
    r.slotSymbol key = key := by
  rw [slotSymbol, if_neg h]

/-- A symbol that is no keyword needs no other symbol for its slot. -/
theorem hasVariable_of_not_isKeyword (h : ¬ key.isKeyword = true) (r : Realm) :
    r.HasVariable key :=
  fun hkey => absurd hkey h

/-- A variable that is interned stays so. -/
theorem HasVariable.extend (h : r.HasVariable key) (hext : r.symbols.Extends r'.symbols) :
    r'.HasVariable key := by
  intro hkey
  obtain ⟨s, hs⟩ := h hkey
  exact ⟨s, hext _ _ _ hs⟩

/-- What is stored for a key does not change any more once the variable is there. -/
theorem HasVariable.slotSymbol_eq (h : r.HasVariable key) (hext : r.symbols.Extends r'.symbols) :
    r'.slotSymbol key = r.slotSymbol key := by
  by_cases hkey : key.isKeyword = true
  · obtain ⟨s, hs⟩ := h hkey
    rw [slotSymbol, slotSymbol, if_pos hkey, if_pos hkey, SymbolTable.intern_of_find? hs,
      SymbolTable.intern_of_find? (hext _ _ _ hs)]
  · rw [slotSymbol_of_not_isKeyword hkey, slotSymbol_of_not_isKeyword hkey]

end Realm

/-! ### Converting keywords -/

/-- Converting keywords takes no symbol away. -/
theorem Image.extends_internKeywords (image : Image) (keys : List Symbol) :
    image.realm.symbols.Extends (image.internKeywords keys).realm.symbols :=
  fun _ _ _ h => SymbolTable.find?_internKeywords_of_find? h

/-- Whatever was converted has its variable. -/
theorem Image.hasVariable_internKeywords (image : Image) (key : Symbol) :
    (image.internKeywords [key]).realm.HasVariable key := by
  intro hkey
  have hsome : ((image.realm.symbols.internKeywords [key]).find? key.name .vars).isSome := by
    rw [SymbolTable.isSome_find?_internKeywords]
    exact .inr ⟨rfl, key, List.mem_singleton_self key, hkey, rfl⟩
  exact Option.isSome_iff_exists.mp hsome

namespace Action

/-- The key to be written is what is stored for it. -/
theorem runOn_keyForWrite_eq (key : Symbol) (image : Image) :
    (keyForWrite key).runOn image =
      (.ok ((image.internKeywords [key]).realm.slotSymbol key), image.internKeywords [key]) := by
  -- a keyword interns the variable with its name, any other symbol is its own key
  by_cases hkey : key.isKeyword = true
  · have hafter : image.internKeywords [key] =
        { image with realm.symbols := (image.realm.symbols.intern key.name .vars).2 } := by
      rw [Image.internKeywords, SymbolTable.internKeywords_cons_of_isKeyword hkey]
      rfl
    rw [hafter, keyForWrite, if_pos hkey, Realm.slotSymbol, if_pos hkey,
      (SymbolTable.Extends.refl _).intern_eq]
    rfl
  · have hafter : image.internKeywords [key] = image := by
      rw [Image.internKeywords, SymbolTable.internKeywords_cons_of_not_isKeyword hkey]
      rfl
    rw [hafter, keyForWrite, if_neg hkey, Realm.slotSymbol_of_not_isKeyword hkey]
    rfl

/-! ### Reading -/

/-- The value of an object's slot is what is stored under the key to be read. -/
theorem runOn_slotValue_object (o : StandardObject) (key : Symbol) (image : Image) :
    (slotValue (.object o) key).runOn image =
      (match (keyForRead? image.realm key).bind (image.heap.slotsOf o).get? with
        | some v => .ok v
        | none => .error (.unboundSlot (.object o) key), image) := by
  rw [slotValue, runOn_query]
  rfl

/-- An object has a slot if there is something to be read. -/
theorem isSlotBound_object (r : Realm) (h : Heap) (o : StandardObject) (key : Symbol) :
    isSlotBound r h (.object o) key = ((keyForRead? r key).bind (h.slotsOf o).get?).isSome := by
  unfold isSlotBound
  cases keyForRead? r key with
  | none => rfl
  | some s => exact Bindings.contains_eq_isSome_get? _ _

/-- Nothing else has slots. -/
theorem isSlotBound_of_not_object {object : Value} (h : ∀ o, object ≠ .object o) (r : Realm)
    (heap : Heap) (key : Symbol) : isSlotBound r heap object key = false := by
  unfold isSlotBound
  split
  · exact absurd rfl (h _)
  · rfl

/-- To ask a value that is no object for a slot is an error. -/
theorem runOn_slotValue_of_not_object {object : Value} (h : ∀ o, object ≠ .object o) (key : Symbol)
    (image : Image) :
    (slotValue object key).runOn image = (.error (.notA .standardObject object), image) := by
  cases object with
  | object o => exact absurd rfl (h o)
  | _ => rfl

/-! ### Initialisers -/

/-- The slots that alternating names and values are meant for, under the names as they are given. -/
def slotPairs : List Value → List (Symbol × Value)
  | .symbol key :: v :: rest => (key, v) :: slotPairs rest
  | [.symbol key] => [(key, .host .undefined)]
  | _ => []

/-- A name and a value stand for a slot, and what follows is read with the name's symbol there. -/
theorem slotsOfInitializers_pair_ok {rest : List Value}
    (h : (slotsOfInitializers (.symbol key :: v :: rest)).runOn image = (.ok slots, after)) :
    ∃ others,
      (slotsOfInitializers rest).runOn (image.internKeywords [key]) = (.ok others, after) ∧
        slots = ((image.internKeywords [key]).realm.slotSymbol key, v) :: others := by
  simp only [slotsOfInitializers, slotName] at h
  obtain ⟨_, _, hname, h⟩ := runOn_bind_eq_ok_iff.mp h
  cases hname
  obtain ⟨k, middle, hkey, h⟩ := runOn_bind_eq_ok_iff.mp h
  rw [runOn_keyForWrite_eq] at hkey
  cases hkey
  obtain ⟨others, middle, hrest, h⟩ := runOn_bind_eq_ok_iff.mp h
  cases h
  exact ⟨others, hrest, rfl⟩

/-- The slots of an instance are stored under the symbols for their names. -/
theorem slotsOfInitializers_ok (initializers : List Value) (slots : List (Symbol × Value))
    (image after : Image)
    (h : (slotsOfInitializers initializers).runOn image = (.ok slots, after)) :
    after.heap = image.heap ∧ (∀ p ∈ slotPairs initializers, after.realm.HasVariable p.1) ∧
      slots = (slotPairs initializers).map fun p => (after.realm.slotSymbol p.1, p.2) := by
  have hafter : after = image.internKeywords (leadingKeys initializers) := by
    rw [← runOn_slotsOfInitializers_snd, h]
  refine ⟨by rw [hafter]; rfl, ?_⟩
  match initializers with
  | [] =>
    cases h
    exact ⟨by simp [slotPairs], rfl⟩
  | [name] =>
    cases name with
    | symbol key =>
      simp only [slotsOfInitializers, slotName, runOn_bind, runOn_ofExcept, runOn_keyForWrite_eq,
        runOn_pure] at h
      cases h
      exact ⟨List.forall_mem_singleton.mpr (image.hasVariable_internKeywords key), rfl⟩
    | _ => cases h
  | name :: v :: rest =>
    cases name with
    | symbol key =>
      obtain ⟨others, hrest, rfl⟩ := slotsOfInitializers_pair_ok h
      obtain ⟨-, hkeys, hothers⟩ := slotsOfInitializers_ok rest others _ _ hrest
      -- the keys that are made after this one leave it as it is
      have hext := (image.internKeywords [key]).extends_internKeywords (leadingKeys rest)
      rw [← runOn_slotsOfInitializers_snd, hrest] at hext
      have hvariable := image.hasVariable_internKeywords key
      refine ⟨List.forall_mem_cons.mpr ⟨hvariable.extend hext, hkeys⟩, ?_⟩
      rw [hothers, slotPairs, List.map_cons, hvariable.slotSymbol_eq hext]
    | _ => cases h

/-! ### Outcomes -/

/-- An instance that is made is a new object with the slots that its initialisers stand for. -/
theorem makeInstance_ok (h : (makeInstance c initializers).runOn image = (.ok v, after)) :
    ∃ slots middle, (slotsOfInitializers initializers).runOn image = (.ok slots, middle) ∧
      (newObject c slots).runOn middle = (.ok v, after) := by
  have hlooks := looks_assertType (.classObject c) (.builtIn .standardClass)
  unfold makeInstance at h
  obtain ⟨_, middle, hclass, h⟩ := runOn_bind_eq_ok_iff.mp h
  have hmiddle : middle = image := hlooks.eq_of_runOn hclass
  rw [hmiddle, runOn_bind, runOn_get] at h
  dsimp only at h
  split at h
  · obtain ⟨_, _, hodd, -⟩ := runOn_bind_eq_ok_iff.mp h
    cases hodd
  · exact runOn_bind_eq_ok_iff.mp h

/-- A slot of an object is set under the symbol for the key. -/
theorem runOn_setSlotValue_object (o : StandardObject) (key : Symbol) (v : Value) (image : Image) :
    (setSlotValue (.object o) key v).runOn image =
      (.ok (), ⟨image.heap.setSlot o ((image.internKeywords [key]).realm.slotSymbol key) v,
        (image.internKeywords [key]).realm⟩) := by
  simp only [setSlotValue, slotOwner, runOn_bind, runOn_ofExcept, runOn_keyForWrite_eq,
    runOn_changeHeap]
  rfl

/-- Only the value of an object is set. -/
theorem exists_object_of_setSlotValue_ok {object : Value} {u : Unit}
    (h : (setSlotValue object key v).runOn image = (.ok u, after)) : ∃ o, object = .object o := by
  cases object with
  | object o => exact ⟨o, rfl⟩
  | _ => cases h

/-- If the value of a dynamic variable is set, it is set as a slot. -/
theorem setDynamicValue_ok {dynamic : Value} {u : Unit}
    (h : (setDynamicValue dynamic v).runOn image = (.ok u, after)) :
    (setSlotValue dynamic image.realm.names.value v).runOn image = (.ok u, after) := by
  unfold setDynamicValue at h
  obtain ⟨checked, middle, hclass, h⟩ := runOn_bind_eq_ok_iff.mp h
  have hmiddle : middle = image := (looks_assertType _ _).eq_of_runOn hclass
  have hchecked : checked = dynamic := by
    rw [assertType, runOn_query, Realm.assertType] at hclass
    split at hclass <;> cases hclass
    rfl
  rw [hmiddle, hchecked, runOn_bind, runOn_get] at h
  exact h

end Action

/-! ### Writes -/

namespace Operation

/-- The object that the operation makes for its caller. -/
def madeObject? (image : Image) (op : Operation) : Option StandardObject :=
  match op, (image.perform op).1 with
  | .makeInstance _ _, .ok (.value (.object o)) => some o
  | .makeDynamic _, .ok (.value (.object o)) => some o
  | _, _ => none

/-- The writes of the operation, under the keys as they are given; the value of a dynamic variable is
    in a slot of the realm's own naming. -/
def slotWrites (image : Image) (op : Operation) : List (Write .slots) :=
  match op, (image.perform op).1 with
  | .makeInstance _ initializers, .ok (.value (.object o)) =>
    (Action.slotPairs initializers).map fun p => ⟨o.slots, p.1, p.2⟩
  | .makeDynamic v, .ok (.value (.object o)) => [⟨o.slots, image.realm.names.value, v⟩]
  | .setSlotValue (.object o) key v, .ok _ => [⟨o.slots, key, v⟩]
  | .setDynamicValue (.object o) v, .ok _ => [⟨o.slots, image.realm.names.value, v⟩]
  | _, _ => []

/-- The object whose slot the operation is to set. -/
def slotOwner? : Operation → Option StandardObject
  | setSlotValue (.object o) _ _ => some o
  | setDynamicValue (.object o) _ => some o
  | _ => none

end Operation

/-- What an operation does to the slots, in terms of a store in which the objects that it makes have
    been added. -/
structure Image.SlotStep (image : Image) (op : Operation) (base : Store .slots (Bindings Value)) :
    Prop where
  extends_base : image.heap.slots.Extends base
  /-- The writes are all that happens to the objects in that store. -/
  slots_eq : (image.perform op).2.heap.slots =
    ((op.slotWrites image).map (image.perform op).2.realm.stored).foldl Store.put base
  contains : ∀ w ∈ op.slotWrites image, base.Contains w.cell
  hasVariable : ∀ w ∈ op.slotWrites image, (image.perform op).2.realm.HasVariable w.key
  /-- The object that is made is new, and has no slots yet. -/
  made : ∀ o, op.madeObject? image = some o →
    ¬ image.heap.slots.Contains o.slots ∧ base.Contains o.slots ∧ base.read o.slots = .empty

namespace Image

/-- An operation that writes nothing may add other objects. -/
theorem slotStep_of_extends (hwrites : op.slotWrites image = [])
    (hmade : op.madeObject? image = none)
    (hext : image.heap.slots.Extends (image.perform op).2.heap.slots) :
    image.SlotStep op (image.perform op).2.heap.slots where
  extends_base := hext
  slots_eq := by rw [hwrites]; rfl
  contains := by rw [hwrites]; simp
  hasVariable := by rw [hwrites]; simp
  made := by rw [hmade]; simp

/-- Slots that are there stay as they are. -/
def SameSlots (image after : Image) : Prop :=
  image.heap.slots.Extends after.heap.slots

instance : ImageFrame SameSlots where
  refl _ := .refl _
  trans _ _ _ h h' := Store.Extends.trans h h'
  intern _ _ _ := .refl _
  grows _ _ h := h.slots
  inputs _ _ := .refl _
  outputs _ _ := .refl _
  nextIdentity _ _ := .refl _

/-- A failed operation has written nothing that counts. -/
theorem slotWrites_of_error {condition : Condition} (h : (image.perform op).1 = .error condition) :
    op.slotWrites image = [] := by
  unfold Operation.slotWrites
  split <;> simp_all

/-- A failed operation makes no object. -/
theorem madeObject?_of_error {condition : Condition} (h : (image.perform op).1 = .error condition) :
    op.madeObject? image = none := by
  unfold Operation.madeObject?
  split <;> simp_all

/-- An operation that fails writes nothing, and may have added other objects. -/
theorem exists_slotStep_of_error {f : Fault} (h : op.action.runOn image = (.error f, after))
    (hext : image.heap.slots.Extends after.heap.slots) : ∃ base, image.SlotStep op base := by
  have hanswer := congrArg Prod.fst (perform_of_error h)
  refine ⟨_, slotStep_of_extends (slotWrites_of_error hanswer) (madeObject?_of_error hanswer) ?_⟩
  -- the condition is an object too
  rw [perform_of_error h]
  exact hext.trans (Heap.grows_report _ _ _).slots

/-- A new object with slots is a step. -/
theorem slotStep_of_newObject (pairs : List (Symbol × Value))
    (hwrites : op.slotWrites image =
      pairs.map fun p => ⟨(image.heap.newObject c).1.slots, p.1, p.2⟩)
    (hmade : op.madeObject? image = some (image.heap.newObject c).1)
    (hvariable : ∀ p ∈ pairs, (image.perform op).2.realm.HasVariable p.1)
    (hheap : (image.perform op).2.heap =
      (pairs.map fun p => ((image.perform op).2.realm.slotSymbol p.1, p.2)).foldl
        (fun h' slot => h'.setSlot (image.heap.newObject c).1 slot.1 slot.2)
        (image.heap.newObject c).2) :
    image.SlotStep op (image.heap.slots.alloc .empty).2 where
  -- the slots of the new object are a new cell, and all writes are on it
  extends_base := .alloc _ _
  slots_eq := by
    rw [hheap, Heap.slots_withSlots, hwrites, List.map_map, List.map_map]
    rfl
  contains w hw := by
    rw [hwrites] at hw
    obtain ⟨p, -, rfl⟩ := List.mem_map.mp hw
    exact Store.contains_alloc_self _ _
  hasVariable w hw := by
    rw [hwrites] at hw
    obtain ⟨p, hp, rfl⟩ := List.mem_map.mp hw
    exact hvariable p hp
  made o ho := by
    rw [hmade, Option.some.injEq] at ho
    rw [← ho]
    have hnew := image.heap.slots.not_contains_alloc .empty
    exact ⟨hnew, Store.contains_alloc_self _ _, Store.read_alloc_self _ _⟩

/-- Setting a slot of an object that is there is a step. -/
theorem slotStep_of_setSlot (key : Symbol) (v : Value)
    (hwrites : op.slotWrites image = [⟨o.slots, key, v⟩])
    (hmade : op.madeObject? image = none) (ho : image.heap.slots.Contains o.slots)
    (hvariable : (image.perform op).2.realm.HasVariable key)
    (hslots : (image.perform op).2.heap.slots =
      image.heap.slots.put ⟨o.slots, (image.perform op).2.realm.slotSymbol key, v⟩) :
    image.SlotStep op image.heap.slots where
  extends_base := .refl _
  slots_eq := by
    rw [hwrites, hslots]
    rfl
  contains := by
    rw [hwrites]
    exact List.forall_mem_singleton.mpr ho
  hasVariable := by
    rw [hwrites]
    exact List.forall_mem_singleton.mpr hvariable
  made := by rw [hmade]; simp

/-! ### All operations -/

/-- Class graphs, frames and pairs are no slots. -/
theorem free_sameSlots (hslots : Part.slots ∉ op.footprint) :
    ∀ p ∈ op.footprint, p.Free SameSlots := by
  intro p hp
  cases p with
  | classes => exact fun _ _ => Store.Extends.refl _
  | frames => exact fun _ _ => Store.Extends.refl _
  | slots => exact absurd hp hslots
  | pairs => exact fun _ _ => Store.Extends.refl _

/-- An operation without slots in its footprint that writes nothing is a step. -/
theorem exists_slotStep_of_footprint (hslots : Part.slots ∉ op.footprint)
    (hwrites : op.slotWrites image = []) (hmade : op.madeObject? image = none) :
    ∃ base, image.SlotStep op base :=
  ⟨_, slotStep_of_extends hwrites hmade (perform_keeps (free_sameSlots hslots) image)⟩

/-- **Making an instance** gives a new object the slots that its initialisers name. -/
theorem exists_slotStep_makeInstance (image : Image) (c : ClassId) (initializers : List Value) :
    ∃ base, image.SlotStep (.makeInstance c initializers) base := by
  cases hrun : (Action.makeInstance c initializers).runOn image with
  | mk result after =>
    cases result with
    | error f =>
      have hfail : (Operation.makeInstance c initializers).action.runOn image = (.error f, after) := by
        rw [Operation.action, Action.runOn_bind, hrun]
      have hsame : SameSlots image ((Action.makeInstance c initializers).runOn image).2 :=
        Action.keeps_makeInstance c initializers image
      rw [hrun] at hsame
      exact exists_slotStep_of_error hfail hsame
    | ok v =>
      have hok : (Operation.makeInstance c initializers).action.runOn image =
          (.ok (.value v), after) := by
        rw [Operation.action, Action.runOn_bind, hrun]
        rfl
      have hperform := perform_of_ok hok
      -- before the object is made only symbols were interned
      obtain ⟨slots, middle, hslots, hnew⟩ := Action.makeInstance_ok hrun
      obtain ⟨hheap, hvariable, rfl⟩ := Action.slotsOfInitializers_ok _ _ _ _ hslots
      obtain ⟨heap, realm⟩ := middle
      obtain rfl : heap = image.heap := hheap
      rw [Action.newObject, Action.runOn_onHeap] at hnew
      cases hnew
      refine ⟨_, slotStep_of_newObject (c := c) (Action.slotPairs initializers) ?_ ?_ ?_ ?_⟩
      · simp only [Operation.slotWrites, hperform]
      · simp only [Operation.madeObject?, hperform]
      · rw [hperform]
        exact hvariable
      · rw [hperform]

/-- The slot of a dynamic variable's value is named by a variable. -/
theorem not_isKeyword_value (hn : r.names.FoundIn r.symbols) : ¬ r.names.value.isKeyword = true :=
  SymbolTable.not_isKeyword_of_find? hn.value

/-- **Making a dynamic variable** gives a new object one slot, named by the realm itself. -/
theorem exists_slotStep_makeDynamic (hn : image.realm.names.FoundIn image.realm.symbols)
    (v : Value) : ∃ base, image.SlotStep (.makeDynamic v) base := by
  have hkey := not_isKeyword_value hn
  -- the slot's name is one that the realm has, so nothing is interned
  have hperform : image.perform (.makeDynamic v) =
      (.ok (.value (.object (image.heap.newObject BuiltinClass.dynamic).1)),
        ⟨(image.heap.newObject BuiltinClass.dynamic).2.setSlot
          (image.heap.newObject BuiltinClass.dynamic).1 image.realm.names.value v, image.realm⟩) := rfl
  refine ⟨_, slotStep_of_newObject (c := BuiltinClass.dynamic) [(image.realm.names.value, v)]
    ?_ ?_ ?_ ?_⟩
  · simp only [Operation.slotWrites, hperform]
    rfl
  · simp only [Operation.madeObject?, hperform]
  · exact List.forall_mem_singleton.mpr (Realm.hasVariable_of_not_isKeyword hkey _)
  · rw [hperform, List.map_singleton, Realm.slotSymbol_of_not_isKeyword hkey]
    rfl

/-- To set a slot of an object is one write. -/
theorem slotWrites_setSlotValue (image : Image) (o : StandardObject) (key : Symbol) (v : Value) :
    (Operation.setSlotValue (.object o) key v).slotWrites image = [⟨o.slots, key, v⟩] := by
  obtain ⟨after, hrun⟩ : ∃ after,
      (Operation.setSlotValue (.object o) key v).action.runOn image = (.ok .done, after) := by
    rw [Operation.action, Action.runOn_bind, Action.runOn_setSlotValue_object]
    exact ⟨_, rfl⟩
  simp only [Operation.slotWrites, perform_of_ok hrun]

/-- **Setting a slot** writes it, on an object that is there. -/
theorem exists_slotStep_setSlotValue (object : Value) (key : Symbol) (v : Value)
    (howner : ∀ o, object = .object o → image.heap.slots.Contains o.slots) :
    ∃ base, image.SlotStep (.setSlotValue object key v) base := by
  cases hrun : (Action.setSlotValue object key v).runOn image with
  | mk result after =>
    cases result with
    | error f =>
      have hfail : (Operation.setSlotValue object key v).action.runOn image = (.error f, after) := by
        rw [Operation.action, Action.runOn_bind, hrun]
      -- the check of the owner comes before the write
      obtain rfl : after = image := Action.atomic_setSlotValue object key v image f after hrun
      exact exists_slotStep_of_error hfail (.refl _)
    | ok u =>
      obtain ⟨o, rfl⟩ := Action.exists_object_of_setSlotValue_ok hrun
      have hok : (Operation.setSlotValue (.object o) key v).action.runOn image = (.ok .done, after) := by
        rw [Operation.action, Action.runOn_bind, hrun]
        rfl
      have hperform := perform_of_ok hok
      rw [Action.runOn_setSlotValue_object] at hrun
      cases hrun
      refine ⟨_, slotStep_of_setSlot (o := o) key v (slotWrites_setSlotValue image o key v) ?_
        (howner o rfl) ?_ ?_⟩
      · simp only [Operation.madeObject?]
      · rw [hperform]
        exact image.hasVariable_internKeywords key
      · rw [hperform]
        rfl

/-- **Setting a dynamic variable** writes its one slot. -/
theorem exists_slotStep_setDynamicValue (hn : image.realm.names.FoundIn image.realm.symbols)
    (dynamic v : Value) (howner : ∀ o, dynamic = .object o → image.heap.slots.Contains o.slots) :
    ∃ base, image.SlotStep (.setDynamicValue dynamic v) base := by
  have hkey := not_isKeyword_value hn
  cases hrun : (Action.setDynamicValue dynamic v).runOn image with
  | mk result after =>
    cases result with
    | error f =>
      have hfail : (Operation.setDynamicValue dynamic v).action.runOn image = (.error f, after) := by
        rw [Operation.action, Action.runOn_bind, hrun]
      -- both checks come before the write, so a failure leaves the image as it was
      obtain rfl : after = image := Action.atomic_setDynamicValue dynamic v image f after hrun
      exact exists_slotStep_of_error hfail (.refl _)
    | ok u =>
      have hset := Action.setDynamicValue_ok hrun
      -- what passed the checks is an object
      obtain ⟨o, rfl⟩ := Action.exists_object_of_setSlotValue_ok hset
      have hok : (Operation.setDynamicValue (.object o) v).action.runOn image = (.ok .done, after) := by
        rw [Operation.action, Action.runOn_bind, hrun]
        rfl
      have hperform := perform_of_ok hok
      rw [Action.runOn_setSlotValue_object] at hset
      cases hset
      refine ⟨_, slotStep_of_setSlot (o := o) image.realm.names.value v ?_ ?_
        (howner o rfl) (Realm.hasVariable_of_not_isKeyword hkey _) ?_⟩
      · simp only [Operation.slotWrites, hperform]
      · simp only [Operation.madeObject?]
      · rw [hperform]
        rfl

/-- **Steps.** Every operation that goes through the realm, and is given an object that is there,
    changes slots by its writes alone. -/
theorem exists_slotStep (hn : image.realm.names.FoundIn image.realm.symbols)
    (hraw : ∀ o key v, op ≠ .setSlot o key v)
    (howner : ∀ o, op.slotOwner? = some o → image.heap.slots.Contains o.slots) :
    ∃ base, image.SlotStep op base := by
  cases op
  case makeInstance c initializers => exact exists_slotStep_makeInstance image c initializers
  case makeDynamic v => exact exists_slotStep_makeDynamic hn v
  case setSlotValue object key v =>
    refine exists_slotStep_setSlotValue object key v fun o ho => howner o ?_
    rw [ho]
    rfl
  case setDynamicValue dynamic v =>
    refine exists_slotStep_setDynamicValue hn dynamic v fun o ho => howner o ?_
    rw [ho]
    rfl
  -- the raw write takes its key as it is, and is left to the caller
  case setSlot o key v => exact absurd rfl (hraw o key v)
  all_goals exact exists_slotStep_of_footprint (by simp [Operation.footprint]) rfl rfl

end Image

end LispObjects
