import LispObjects.Proofs.Heap.WriteLog
import LispObjects.Proofs.Realm.WellFormed
import LispObjects.Realm.Condition

namespace LispObjects

/-!
# What conditions carry

A condition is a new object, and its slots hold the wording and the data of the fault that it reports.

* `Heap.slots_withSlots`, `Heap.slotsOf_withSlots` — the slots of an object that is made with some;
* `Realm.slotsOf_report` — those of a condition;
* `Realm.slot?_wrongType`, `Realm.slot?_unboundSymbol`, `Realm.slot?_unboundSlot` — what the
  conditions for a wrong type, for an unbound symbol and for an unbound slot carry, read by the names
  of their slots.
-/

variable {r : Realm} {h : Heap} {o : StandardObject}

/-! ### New objects -/

namespace Heap

/-- Setting a slot puts its value on the slots of the object. -/
theorem slots_setSlot (h : Heap) (o : StandardObject) (key : Symbol) (v : Value) :
    (h.setSlot o key v).slots = h.slots.put ⟨o.slots, key, v⟩ := rfl

/-- Several slots of one object are set. -/
theorem slots_foldl_setSlot (h : Heap) (o : StandardObject) (slots : List (Symbol × Value)) :
    (slots.foldl (fun h slot => h.setSlot o slot.1 slot.2) h).slots =
      (slots.map fun slot => ⟨o.slots, slot.1, slot.2⟩).foldl Store.put h.slots := by
  induction slots generalizing h with
  | nil => rfl
  | cons slot slots ih =>
    rw [List.foldl_cons, List.map_cons, List.foldl_cons, ih, slots_setSlot]

/-- An object that is made with slots takes a new cell. -/
theorem slots_withSlots (h : Heap) (c : ClassId) (slots : List (Symbol × Value)) :
    (slots.foldl (fun h' slot => h'.setSlot (h.newObject c).1 slot.1 slot.2)
        (h.newObject c).2).slots =
      (slots.map fun slot => ⟨(h.slots.alloc .empty).1, slot.1, slot.2⟩).foldl Store.put
        (h.slots.alloc .empty).2 :=
  slots_foldl_setSlot _ _ slots

/-- **New objects** hold the slots that they are made with. -/
theorem slotsOf_withSlots (h : Heap) (c : ClassId) (slots : List (Symbol × Value)) :
    (slots.foldl (fun h' slot => h'.setSlot (h.newObject c).1 slot.1 slot.2)
        (h.newObject c).2).slotsOf (h.newObject c).1 = .ofPuts slots := by
  have hcontains : (h.slots.alloc .empty).2.Contains (h.slots.alloc .empty).1 :=
    h.slots.contains_alloc_self .empty
  show Store.read _ (h.slots.alloc .empty).1 = _
  rw [slots_withSlots, Store.read_foldl_put_self hcontains, Store.read_alloc_self]
  rfl

end Heap

/-! ### Conditions -/

namespace Realm

/-- **Conditions** carry the wording of the fault and the fault's data. -/
theorem slotsOf_report (r : Realm) (f : Fault) (h : Heap) :
    (r.report f h).2.slotsOf (r.report f h).1.object =
      .ofPuts ((r.names.message, .string (r.faultMessage f)) :: (r.faultSlots h f).1) :=
  Heap.slotsOf_withSlots (r.faultSlots h f).2 f.category _

/-- **Type errors** tell the value, and the expected type as data. -/
theorem slot?_wrongType (hn : r.names.FoundIn r.symbols) (datum : Value) (expected : TypeSpec)
    (h : Heap) :
    let reported := r.report (.wrongType datum expected) h
    reported.1.slot? r reported.2 "datum" = some datum ∧
      reported.1.slot? r reported.2 "expected-type" = some (r.specData expected h).1 := by
  have hdatum : r.names.datum ≠ r.names.expectedType :=
    SymbolTable.ne_of_find? hn.datum hn.expectedType (by decide)
  dsimp only
  simp only [Condition.slot?, slotsOf_report, hn.datum, hn.expectedType, Option.bind_some]
  simp [faultSlots, Bindings.ofPuts, Bindings.get?_put, hdatum]

/-- **Unbound symbols** tell the symbol and the environment. -/
theorem slot?_unboundSymbol (hn : r.names.FoundIn r.symbols) (s : Symbol) (e : Environment)
    (h : Heap) :
    let reported := r.report (.unboundSymbol s e) h
    reported.1.slot? r reported.2 "symbol" = some (.symbol s) ∧
      reported.1.slot? r reported.2 "environment" = some (.environment e) := by
  have hsymbol : r.names.symbol ≠ r.names.environment :=
    SymbolTable.ne_of_find? hn.symbol hn.environment (by decide)
  dsimp only
  simp only [Condition.slot?, slotsOf_report, hn.symbol, hn.environment, Option.bind_some]
  simp [faultSlots, Bindings.ofPuts, Bindings.get?_put, hsymbol]

/-- **Unbound slots** tell the object and the name of the slot. -/
theorem slot?_unboundSlot (hn : r.names.FoundIn r.symbols) (object : Value) (key : Symbol)
    (h : Heap) :
    let reported := r.report (.unboundSlot object key) h
    reported.1.slot? r reported.2 "object" = some object ∧
      reported.1.slot? r reported.2 "slot-name" = some (.symbol key) := by
  have hobject : r.names.object ≠ r.names.slotName :=
    SymbolTable.ne_of_find? hn.object hn.slotName (by decide)
  dsimp only
  simp only [Condition.slot?, slotsOf_report, hn.object, hn.slotName, Option.bind_some]
  simp [faultSlots, Bindings.ofPuts, Bindings.get?_put, hobject]

end Realm

end LispObjects
