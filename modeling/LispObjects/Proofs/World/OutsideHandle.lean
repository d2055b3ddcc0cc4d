import LispObjects.Proofs.World.Run

namespace LispObjects

/-!
# Handles from outside

What a realm makes of a class handle that lies outside its class graph.  Wherever the class behind
the handle is looked up, the answer is that for `object`.  Where the handle itself is compared or
stored, as the upper argument of a subclass test, in a type and as the superclass of a new class, it
stays a handle of its own, and `object`'s answers are not given.

* `Realm.OutsideHandle` — both halves, with the exact conditions of the second;
* `World.outsideHandle_run` — they hold in every realm that is ever reached;
* `World.outsideHandle_not_self` — the class of another realm, which is no subclass of itself.
-/

/-- What holds of a handle from outside the graph of a realm. -/
structure Realm.OutsideHandle (r : Realm) (h : ClassId) : Prop where
  -- where it is looked up, it is `object`
  record : r.record h = r.record BuiltinClass.object
  className : r.className h = r.className BuiltinClass.object
  superclass? : r.classes.superclass? h = r.classes.superclass? BuiltinClass.object
  metaclassOf : r.metaclassOf h = r.metaclassOf BuiltinClass.object
  classOf : r.classOf (.classObject h) = r.classOf (.classObject BuiltinClass.object)
  isSubclass : ∀ c, r.isSubclass h c = r.isSubclass BuiltinClass.object c
  -- where it is compared, it is not
  /-- It is told from `object` by every class whose chain ends at either of them. -/
  isSubclass_eq_iff : ∀ c, r.isSubclass c h = r.isSubclass c BuiltinClass.object ↔
    ¬ r.classes.EndsAt (r.classes.resolve c) h ∧
      ¬ r.classes.EndsAt (r.classes.resolve c) BuiltinClass.object
  /-- It is told from `object` by every value whose class has such a chain. -/
  hasType_eq_iff : ∀ v, r.hasType v (.ofClass h) = r.hasType v (.builtIn .object) ↔
    ¬ r.classes.EndsAt (r.classOf v) h ∧ ¬ r.classes.EndsAt (r.classOf v) BuiltinClass.object
  not_isSubclass_self : r.isSubclass h h = false
  /-- A class that is made under it has the handle as its superclass, and not `object`. -/
  makesClass : ∀ heap name, Image.MakesClass ⟨heap, r⟩ name (.classObject h) h
  ne_object : h ≠ BuiltinClass.object

/-- In a graph that begins with the built-in classes all of it holds. -/
theorem Realm.outsideHandle_of_not_contains {r : Realm} {h : ClassId} (hb : r.classes.HasBuiltIns)
    (hout : r.classes.contains h = false) : r.OutsideHandle h := by
  have hobj : r.classes.contains BuiltinClass.object = true := hb.contains_id .object
  -- below the handle stands for `object`, above it is compared as it is
  have hres : r.classes.resolve h = r.classes.resolve BuiltinClass.object := by
    rw [ClassGraph.resolve_of_not_contains hout, ClassGraph.resolve_of_contains hobj]
  have hrec : r.record h = r.record BuiltinClass.object := by
    rw [Realm.record, ClassGraph.get?, hres]
    rfl
  have hne : h ≠ BuiltinClass.object := by
    rintro rfl
    rw [hobj] at hout
    cases hout
  -- neither has a superclass, so a chain ends at one of them at most
  have htop := hb.superclass?_of_not_contains hout
  exact {
    record := hrec
    className := by rw [Realm.className, hrec]; rfl
    superclass? := ClassGraph.superclass?_congr hres
    metaclassOf := by rw [Realm.metaclassOf, hrec]; rfl
    classOf := by simp only [Realm.classOf, Realm.metaclassOf, hrec]
    isSubclass := fun c => ClassGraph.isSubclass_congr hres c
    isSubclass_eq_iff := fun c =>
      ClassGraph.isSubclass_eq_iff_of_tops htop hb.superclass?_object hne
    hasType_eq_iff := fun v => by
      rw [TypeSpec.builtIn, Realm.hasType_ofClass, Realm.hasType_ofClass]
      have hiff := ClassGraph.isSubclass_eq_iff_of_tops (c := r.classOf v) htop
        hb.superclass?_object hne
      rwa [ClassGraph.resolve_of_contains (Realm.contains_classOf hb v)] at hiff
    not_isSubclass_self := by
      rw [Realm.isSubclass, ClassGraph.isSubclass_eq_false_iff_endsAt htop, hres,
        ClassGraph.resolve_of_contains hobj]
      exact fun hend => hne (hend.unique (.of_top hb.superclass?_object))
    makesClass := fun _ _ => Image.makesClass_of_hasType (Realm.hasType_classObject hb h)
    ne_object := hne }

namespace World

/-- **Handles from outside.** In every realm that is ever reached they are `object` to a lookup and
    not to a comparison.  If the realm is given no superclass from outside its graph, no class and no
    value at all takes one for `object`. -/
theorem outsideHandle_run {events : List Event} {i : Nat} {r : Realm} {h : ClassId}
    (hr : (run events).realms[i]? = some r) (hout : r.classes.contains h = false) :
    r.OutsideHandle h ∧
      (OwnSuperclasses events i →
        (∀ c, r.isSubclass c h ≠ r.isSubclass c BuiltinClass.object) ∧
          ∀ v, r.hasType v (.ofClass h) ≠ r.hasType v (.builtIn .object)) := by
  have hb := hasBuiltIns_classes hr
  have houtside := Realm.outsideHandle_of_not_contains hb hout
  refine ⟨houtside, fun hown => ?_⟩
  have ho := ordered_run hown (graph?_of_realm hr)
  -- every chain ends at `object`, and so every class and every value tells the two apart
  refine ⟨fun c heq => ?_, fun v heq => ?_⟩
  · have hend := ho.endsAt_object (ClassGraph.contains_resolve hb.size_pos c)
    exact ((houtside.isSubclass_eq_iff c).mp heq).2 hend
  · have hend := ho.endsAt_object (Realm.contains_classOf hb v)
    exact ((houtside.hasType_eq_iff v).mp heq).2 hend

/-- The first handle that a new realm does not have. -/
theorem outsideHandle_of_new_realm :
    ∃ r, (run [.newRealm {}]).realms[0]? = some r ∧ r.classes.contains ⟨37⟩ = false ∧
      r.OutsideHandle ⟨37⟩ := by
  obtain ⟨g, hg, -, hnext⟩ := graph?_run_newRealm {}
  obtain ⟨r, hr, rfl⟩ := graph?_eq_some_iff.mp hg
  have hout : r.classes.contains ⟨37⟩ = false := by
    rw [← hnext]
    exact ClassGraph.not_contains_next r.classes
  exact ⟨r, hr, hout, (outsideHandle_run hr hout).1⟩

/-- Two realms, of which the second makes a class, whose handle is 37. -/
def foreignClass : List Event :=
  [.newRealm {}, .newRealm {},
    .perform 1 (.makeClass ⟨1, 0, "message", .vars⟩ (.classObject BuiltinClass.standardObject.id))]

/-- **No subclass of itself.** To the first realm the second's class lies outside and is a subclass of
    `object`, but not of itself, and `object` is no subclass of it. -/
theorem outsideHandle_not_self :
    ∃ r g, (run foreignClass).realms[0]? = some r ∧ (run foreignClass).graph? 1 = some g ∧
      g.contains ⟨37⟩ = true ∧ r.classes.contains ⟨37⟩ = false ∧
      r.classes.isSubclass? ⟨37⟩ BuiltinClass.object = some true ∧
      r.classes.isSubclass? ⟨37⟩ ⟨37⟩ = some false ∧
      r.classes.isSubclass? BuiltinClass.object ⟨37⟩ = some false := by
  have hsplit : foreignClass = [.newRealm {}, .newRealm {}] ++ [_] := rfl
  simp only [hsplit, run_concat]
  obtain ⟨g, h, hg, hh, ho, hnext, ⟨hb', -⟩, hnext'⟩ := graph?_run_two_realms {} {}
  have hb := ho.builtIns
  obtain ⟨m, hh⟩ := graph?_makeClass_classObject hh hb' ⟨1, 0, "message", .vars⟩
    BuiltinClass.standardObject.id
  rw [← graph?_perform_of_ne Nat.one_ne_zero] at hg
  obtain ⟨r, hr, rfl⟩ := graph?_eq_some_iff.mp hg
  -- the other realm has made a class 37, and this one has only the 37 before it
  have hout : r.classes.contains ⟨37⟩ = false := by
    rw [← hnext]
    exact ClassGraph.not_contains_next r.classes
  have houtside := Realm.outsideHandle_of_not_contains hb hout
  have hobject : r.isSubclass BuiltinClass.object BuiltinClass.object = true := by
    rw [Realm.isSubclass, hb.isSubclass_id]
    rfl
  have hnot : r.isSubclass ⟨37⟩ ⟨37⟩ = false := houtside.not_isSubclass_self
  refine ⟨r, _, hr, hh, ?_, hout, ?_, ?_, ?_⟩
  · rw [← hnext']
    exact ClassGraph.contains_addStandard_next
  · rw [ho.isSubclass?_eq_some, Option.some.injEq, ← hobject]
    exact houtside.isSubclass _
  · rw [ho.isSubclass?_eq_some, Option.some.injEq]
    exact hnot
  · rw [ho.isSubclass?_eq_some, Option.some.injEq, ← hnot]
    exact (houtside.isSubclass _).symm

end World

end LispObjects
