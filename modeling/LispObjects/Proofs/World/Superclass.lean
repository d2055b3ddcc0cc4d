import LispObjects.Proofs.World.Run

namespace LispObjects

/-!
# What may be a superclass

A new class is to stand under the class that it is given, and what is no class is to be refused with
a `type-error`, with nothing made and nothing bound.  The check asks whether the value is an instance
of `class`, and what is stored is the handle that the value holds, so there are two ways in which the
two can come apart.  A third is that the check does not end, since it goes up the chain of the value's
class.

* `Image.HonorsSuperclass` — what is expected of a new class;
* `World.honorsSuperclass_iff` — when it is kept: a class must be one of the realm's graph, and a
  standard object's class must have a chain that ends and that `class` is not on;
* `World.not_honorsSuperclass_instance` — an instance of a class under `class`, which is let through.
-/

variable {image : Image} {name : Symbol} {v : Value} {c s : ClassId} {r : Realm}

namespace Image

/-- The check of the superclass ends.  A new class stands under the class that its superclass's handle
    denotes, and what is no class is refused. -/
def HonorsSuperclass (image : Image) (name : Symbol) (v : Value) : Prop :=
  (image.realm.hasType? v (.builtIn .classObject)).isSome = true ∧
    (∀ c, v = .classObject c → image.MakesClass name v (image.realm.classes.resolve c)) ∧
      ((∀ c, v ≠ .classObject c) → image.RefusesClass name v)

/-- **Where it is kept.** For a class, where the handle denotes itself; for any other value, where the
    check finds out that it is none. -/
theorem honorsSuperclass_iff_of_hasBuiltIns (hb : image.realm.classes.HasBuiltIns) :
    image.HonorsSuperclass name v ↔
      (∀ c, v = .classObject c → image.realm.classes.contains c = true) ∧
        ∀ o, v = .object o →
          image.realm.classes.isSubclass? o.classId BuiltinClass.classObject = some false := by
  constructor
  · rintro ⟨hends, hclass, hother⟩
    refine ⟨?_, ?_⟩
    · rintro c rfl
      have hmade : image.MakesClass name (.classObject c) c :=
        makesClass_of_hasType (Realm.hasType_classObject hb c)
      have hres : c = image.realm.classes.resolve c := hmade.unique (hclass c rfl)
      rw [hres]
      exact ClassGraph.contains_resolve hb.size_pos c
    · rintro o rfl
      obtain ⟨fits, hfits⟩ := Option.isSome_iff_exists.mp hends
      have hsearch := hfits
      rw [TypeSpec.builtIn, Realm.hasType?_object] at hsearch
      rw [hsearch, Option.some.injEq, Bool.eq_false_iff]
      rintro rfl
      have htype := Realm.hasType_of_hasType? hfits
      exact (makesClass_of_hasType htype).not_refusesClass (hother fun _ h => by cases h)
  · rintro ⟨hclass, hobject⟩
    refine ⟨?_, ?_, fun hother => ?_⟩
    · -- only the search from a standard object's class may not end
      by_cases hv : ∃ o, v = .object o
      · obtain ⟨o, rfl⟩ := hv
        rw [TypeSpec.builtIn, Realm.hasType?_object, hobject o rfl]
        rfl
      · rw [Realm.hasType?_eq_some_of_ne_object hb fun o h => hv ⟨o, h⟩]
        rfl
    · rintro c rfl
      rw [ClassGraph.resolve_of_contains (hclass c rfl)]
      exact makesClass_of_hasType (Realm.hasType_classObject hb c)
    · apply refusesClass_of_not_hasType
      rw [Bool.eq_false_iff, ne_eq, Realm.hasType_class_iff hb]
      rintro (⟨c, rfl⟩ | ⟨o, rfl, hsub⟩)
      · exact hother c rfl
      · rw [Realm.isSubclass, ClassGraph.isSubclass_of_isSubclass? (hobject o rfl)] at hsub
        cases hsub

end Image

namespace World

/-- **When superclasses are honored.** In every realm that is ever reached and with every heap beside
    it: exactly for classes of the realm's graph, for standard objects whose class is found not to stand
    under `class`, and for all values that are neither.  Any other class is recorded by its handle as it
    is, and an instance of a class under `class` makes a class under `object`. -/
theorem honorsSuperclass_iff {events : List Event} {i : Nat}
    (hr : (run events).realms[i]? = some r) (heap : Heap) (name : Symbol) (v : Value) :
    (Image.HonorsSuperclass ⟨heap, r⟩ name v ↔
        (∀ c, v = .classObject c → r.classes.contains c = true) ∧
          ∀ o, v = .object o →
            r.classes.isSubclass? o.classId BuiltinClass.classObject = some false) ∧
      (∀ c, v = .classObject c → Image.MakesClass ⟨heap, r⟩ name v c) ∧
        ∀ o, v = .object o → r.isSubclass o.classId BuiltinClass.classObject = true →
          Image.MakesClass ⟨heap, r⟩ name v BuiltinClass.object := by
  have hb := hasBuiltIns_classes hr
  refine ⟨Image.honorsSuperclass_iff_of_hasBuiltIns hb, ?_, ?_⟩
  · rintro c rfl
    exact Image.makesClass_of_hasType (Realm.hasType_classObject hb c)
  · rintro o rfl hsub
    exact Image.makesClass_of_hasType ((Realm.hasType_class_iff hb).mpr (.inr ⟨o, rfl, hsub⟩))

/-- It is kept for a new class under `standard-object` in a new realm. -/
theorem honorsSuperclass_of_standardObject :
    ∃ r, (run [.newRealm {}]).realms[0]? = some r ∧
      Image.HonorsSuperclass ⟨.empty, r⟩ ⟨0, 0, "message", .vars⟩
        (.classObject BuiltinClass.standardObject) := by
  obtain ⟨g, hg, ⟨hb, -⟩, -⟩ := graph?_run_newRealm {}
  obtain ⟨r, hr, rfl⟩ := graph?_eq_some_iff.mp hg
  refine ⟨r, hr, (honorsSuperclass_iff hr _ _ _).1.mpr ⟨?_, ?_⟩⟩
  · rintro _ ⟨⟩
    exact hb.contains_id .standardObject
  · rintro _ ⟨⟩

end World

/-! ### Instances of metaclasses -/

/-- An instance without slots is a new object, and nothing else is touched. -/
theorem Image.perform_makeInstance_nil (image : Image)
    (h : image.realm.hasType (.classObject c) (.builtIn .standardClass) = true) :
    image.perform (.makeInstance c []) =
      (.ok (.value (.object (image.heap.newObject c).1)),
        ⟨(image.heap.newObject c).2, image.realm⟩) := by
  have hrun : (Action.makeInstance c []).runOn image =
      (.ok (.object (image.heap.newObject c).1), ⟨(image.heap.newObject c).2, image.realm⟩) := by
    simp [Action.makeInstance, Action.assertType, Action.runOn_bind, Realm.assertType, h,
      Action.slotsOfInitializers, Action.newObject]
  apply perform_of_ok
  rw [Operation.action, Action.runOn_bind, hrun]
  rfl

namespace World

/-- In a world it leaves the realm as it is. -/
theorem perform_makeInstance_nil {w : World} {i : Nat} (hr : w.realms[i]? = some r)
    (h : r.hasType (.classObject c) (.builtIn .standardClass) = true) :
    ∃ o, o.classId = c ∧ (w.perform i (.makeInstance c [])).1 = some (.ok (.value (.object o))) ∧
      (w.after (.perform i (.makeInstance c []))).realms[i]? = some r := by
  have hmade := Image.perform_makeInstance_nil ⟨w.heap, r⟩ h
  refine ⟨(w.heap.newObject c).1, rfl, ?_, ?_⟩
  · rw [perform_of_realm hr, hmade]
  · rw [realm_perform_self hr, hmade]

/-- A realm that makes a class under `class`. -/
def madeMetaclass : List Event :=
  [.newRealm {},
    .perform 0 (.makeClass ⟨0, 0, "message", .vars⟩ (.classObject BuiltinClass.classObject.id))]

/-- **An instance let through.** The class 37 stands under `class`, and its instance makes the class 38
    although it is no class. -/
theorem not_honorsSuperclass_instance :
    ∃ r o, (run (madeMetaclass ++ [.perform 0 (.makeInstance ⟨37⟩ [])])).realms[0]? = some r ∧
      ((run madeMetaclass).perform 0 (.makeInstance ⟨37⟩ [])).1 =
        some (.ok (.value (.object o))) ∧
      ((run (madeMetaclass ++ [.perform 0 (.makeInstance ⟨37⟩ [])])).perform 0
          (.makeClass ⟨0, 1, "datum", .vars⟩ (.object o))).1 =
        some (.ok (.value (.classObject ⟨38⟩))) ∧
      ∀ heap, ¬ Image.HonorsSuperclass ⟨heap, r⟩ ⟨0, 1, "datum", .vars⟩ (.object o) := by
  have hsplit : madeMetaclass = [.newRealm {}] ++ [_] := rfl
  simp only [hsplit, run_concat]
  obtain ⟨g, hg, ho, hnext⟩ := graph?_run_newRealm {}
  obtain ⟨m, hg⟩ := graph?_makeClass_classObject hg ho.builtIns ⟨0, 0, "message", .vars⟩
    BuiltinClass.classObject.id
  obtain ⟨r, hr, hclasses⟩ := graph?_eq_some_iff.mp hg
  have hor : r.classes.Ordered := hclasses ▸ ho.addStandard (ho.builtIns.contains_id .classObject)
  have hb := hor.builtIns
  have hnext' : r.classes.next = ⟨38⟩ := by
    rw [ClassGraph.next, ClassId.mk.injEq] at hnext ⊢
    rw [hclasses, ClassGraph.size_addStandard, hnext]
  -- the new class is a standard class, so it has instances
  have hrec : r.classes.get? ⟨37⟩ = some ⟨m, some BuiltinClass.classObject.id, .standard,
      .token g.nextToken⟩ := by
    rw [hclasses, ← hnext]
    exact ClassGraph.get?_addStandard_next
  have hstandard : r.hasType (.classObject ⟨37⟩) (.builtIn .standardClass) = true := by
    rw [TypeSpec.builtIn, Realm.hasType_ofClass, Realm.classOf, Realm.metaclassOf, Realm.record, hrec]
    exact ClassGraph.isSubclass_refl (hb.contains_id .standardClass)
  -- it stands under `class`, so they pass for classes
  have hsub : r.isSubclass ⟨37⟩ BuiltinClass.classObject = true := by
    have hin : r.classes.contains ⟨37⟩ = true := by
      rw [hclasses, ← hnext]
      exact ClassGraph.contains_addStandard_next
    rw [Realm.isSubclass, ClassGraph.isSubclass_iff_of_contains hin]
    apply Relation.ReflTransGen.single
    rw [ClassGraph.Super, ClassGraph.superclass?, hrec]
    rfl
  -- the instance is made without a change of the realm, and then the check lets it through
  obtain ⟨o, hclass, hmade, hr'⟩ := perform_makeInstance_nil hr hstandard
  rw [← hclass] at hsub
  have htype := (Realm.hasType_class_iff hb).mpr (.inr ⟨o, rfl, hsub⟩)
  refine ⟨r, o, hr', hmade, ?_, fun heap hhonors => ?_⟩
  · rw [answer_makeClass_of_hasType hr' htype, hnext']
  · have hnot := ((Image.honorsSuperclass_iff_of_hasBuiltIns hb).mp hhonors).2 o rfl
    rw [Realm.isSubclass, ClassGraph.isSubclass_of_isSubclass? hnot] at hsub
    cases hsub

end World

end LispObjects
