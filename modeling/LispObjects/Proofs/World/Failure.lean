import LispObjects.Proofs.Action.Failure
import LispObjects.Proofs.World.Run

namespace LispObjects.World

/-!
# Failures in a run

An operation that fails in a world that any run has led to.

* `SparedBy w i op after` — all of the world `w` is in `after` as it was, but for the keys that a
  refused instance has made in its realm;
* `sparedBy_of_error` — so it is after every failure, unless a primitive body was reached.
-/

variable {w after : World} {i : Nat} {r : Realm} {op : Operation} {condition : Condition}
  {events : List Event} {key : Symbol}

/-- What a failed operation of the realm `i` leaves of a world. -/
structure SparedBy (w : World) (i : Nat) (op : Operation) (after : World) : Prop where
  /-- Environments and streams are as they were, and so are the pairs and objects that were there. -/
  heap : w.heap.Grows after.heap
  size : after.realms.size = w.realms.size
  others : ∀ j, j ≠ i → after.realms[j]? = w.realms[j]?
  /-- Of the realm itself, classes, root, names and configuration are as they were. The symbols are
  so too, unless an instance is refused: then the keywords among the slot names before the first that
  is no symbol may have been converted to variables. -/
  own : ∃ r symbols, w.realms[i]? = some r ∧ after.realms[i]? = some { r with symbols } ∧
    (symbols = r.symbols ∨ ∃ c initializers, op = .makeInstance c initializers ∧
      symbols = r.symbols.internKeywords (Action.leadingKeys initializers))

/-- A failure of the image is one of the world. -/
theorem SparedBy.of_image (hr : w.realms[i]? = some r) (hb : r.classes.HasBuiltIns)
    (hbody : ¬ op.ReachesBody) {image : Image}
    (h : Image.perform ⟨w.heap, r⟩ op = (.error condition, image)) :
    w.SparedBy i op ⟨image.heap, w.realms.setIfInBounds i image.realm⟩ := by
  obtain ⟨hlt, -⟩ := Array.getElem?_eq_some_iff.mp hr
  obtain ⟨hheap, hrealm⟩ := Image.perform_error hb hbody h
  have hself : (w.realms.setIfInBounds i image.realm)[i]? = some image.realm :=
    Array.getElem?_setIfInBounds_self_of_lt hlt
  refine
    { heap := hheap
      size := Array.size_setIfInBounds
      others := fun j hj => Array.getElem?_setIfInBounds_ne hj.symm
      own := ?_ }
  -- the realm is as before, but for the keys that the initialisers of an instance name
  rcases hrealm with hrealm | ⟨c, initializers, hop, hrealm⟩
  · exact ⟨r, r.symbols, hr, hrealm ▸ hself, .inl rfl⟩
  · exact ⟨r, _, hr, hrealm ▸ hself, .inr ⟨c, initializers, hop, rfl⟩⟩

/-- **Failures spare the world.** After any run, an operation that fails without having reached a
    primitive body changes nothing but the symbols that a refused instance has made. -/
theorem sparedBy_of_error (events : List Event) (i : Nat) (op : Operation) (condition : Condition)
    (after : World) (hbody : ¬ op.ReachesBody)
    (h : (run events).perform i op = (some (.error condition), after)) :
    (run events).SparedBy i op after := by
  cases hr : (run events).realms[i]? with
  | none =>
    have hanswer := answer_of_none hr op
    rw [h] at hanswer
    cases hanswer
  | some r =>
    rw [perform_of_realm hr, Prod.mk.injEq, Option.some.injEq] at h
    obtain ⟨hanswer, rfl⟩ := h
    exact SparedBy.of_image hr (hasBuiltIns_classes hr) hbody (Prod.ext hanswer rfl)

/-- A class `standard-object` is asked for an instance whose second slot name is no symbol; the first
    is a keyword. -/
def refusedInstance : Operation :=
  .makeInstance BuiltinClass.standardObject.id
    [.symbol ⟨0, 0, "size", .keywords⟩, .void, .nil, .void]

/-- A failure with a trace. -/
theorem sparedBy_of_refusedInstance :
    ∃ condition after, ¬ refusedInstance.ReachesBody ∧
      (run [.newRealm {}]).perform 0 refusedInstance = (some (.error condition), after) ∧
      (run [.newRealm {}]).SparedBy 0 refusedInstance after := by
  obtain ⟨g, hg, ⟨hb, -⟩, -⟩ := graph?_run_newRealm {}
  obtain ⟨r, hr, rfl⟩ := graph?_eq_some_iff.mp hg
  have htype : r.hasType (.classObject BuiltinClass.standardObject.id)
      (.builtIn .standardClass) = true := by
    obtain ⟨record, hrecord, hrow⟩ := hb.get?_id .standardObject
    rw [TypeSpec.builtIn, Realm.hasType_ofClass, Realm.classOf, Realm.metaclassOf, Realm.record,
      hrecord, Option.getD_some, hrow.metaclass]
    exact hb.isSubclass_id .standardClass .standardClass
  -- the keyword's variable is interned before the next name is refused
  obtain ⟨k, hkey⟩ := Action.runOn_keyForWrite ⟨0, 0, "size", .keywords⟩
    ⟨(run [.newRealm {}]).heap, r⟩
  have hrun : refusedInstance.action.runOn ⟨(run [.newRealm {}]).heap, r⟩ =
      (.error (.notA .symbol .nil),
        Image.internKeywords ⟨(run [.newRealm {}]).heap, r⟩ [⟨0, 0, "size", .keywords⟩]) := by
    simp [refusedInstance, Operation.action, Action.makeInstance, Action.assertType,
      Action.runOn_bind, Realm.assertType, htype, Action.slotsOfInitializers, Action.slotName, hkey]
  have hperform := perform_of_realm hr refusedInstance
  rw [Image.perform_of_error hrun] at hperform
  exact ⟨_, _, id, hperform, sparedBy_of_error _ 0 refusedInstance _ _ id hperform⟩

end LispObjects.World
