import LispObjects.Proofs.World.Run

namespace LispObjects

open Relation

/-!
# The tree of classes

What is certain of the classes of a realm after any run of a world, in which class values go from
realm to realm at will.

* `World.rooted_iff_ownSuperclasses` — all chains of superclasses of a realm end at `object`, after
  every event, exactly if the realm is never given a superclass from outside its graph;
* `World.not_rooted_of_passed_class` — a run in which a class is passed on and cuts its new subclass
  off from `object`;
* `Realm.ClassTree`, `World.classTree_run` — a realm of the former kind has a tree of classes, and
  type tests follow it.
-/

/-- The classes of a realm are a tree with `object` at its root, the subclass test always ends and is its
    order, and type tests go upward in it. -/
structure Realm.ClassTree (r : Realm) : Prop where
  /-- Superclasses are older than their subclasses. -/
  superclass_lt : ∀ c, r.classes.contains c = true → c ≠ BuiltinClass.object.id →
    ∃ s, r.classes.superclass? c = some s ∧ r.classes.contains s = true ∧ s.index < c.index
  isSubclass?_eq_some : ∀ c d, r.classes.isSubclass? c d = some (r.isSubclass c d)
  isSubclass_iff : ∀ c d, r.classes.contains c = true →
    (r.isSubclass c d = true ↔ ReflTransGen r.classes.Super c d)
  refl : ∀ c, r.classes.contains c = true → r.isSubclass c c = true
  trans : ∀ a b c, r.classes.contains a = true →
    r.isSubclass a b = true → r.isSubclass b c = true → r.isSubclass a c = true
  antisymm : ∀ a b, r.classes.contains a = true →
    r.isSubclass a b = true → r.isSubclass b a = true → a = b
  /-- Two classes above one class are comparable. -/
  total : ∀ a b c, r.classes.contains c = true →
    r.isSubclass c a = true → r.isSubclass c b = true →
      r.isSubclass a b = true ∨ r.isSubclass b a = true
  le_object : ∀ c, r.isSubclass c BuiltinClass.object = true
  object_le_iff : ∀ c, r.isSubclass BuiltinClass.object c = true ↔ c = BuiltinClass.object.id
  hasType_mono : ∀ v c d, r.isSubclass c d = true →
    r.hasType v (.ofClass c) = true → r.hasType v (.ofClass d) = true
  hasType_object : ∀ v, r.hasType v (.builtIn .object) = true

/-- A realm whose graph is ordered has a tree of classes. -/
theorem Realm.classTree_of_ordered {r : Realm} (ho : r.classes.Ordered) : r.ClassTree where
  superclass_lt c hc hne := by
    obtain ⟨s, hs, hlt⟩ := ho.superclass_lt c hc hne
    exact ⟨s, hs, ho.contains_of_super hc hs, hlt⟩
  isSubclass?_eq_some := ho.isSubclass?_eq_some
  isSubclass_iff _ _ hc := ClassGraph.isSubclass_iff_of_contains hc
  refl _ hc := ClassGraph.isSubclass_refl hc
  trans _ _ _ ha hab hbc := ho.isSubclass_trans ha hab hbc
  antisymm _ _ ha hab hba := ho.isSubclass_antisymm ha hab hba
  total _ _ _ hc ha hb := ho.isSubclass_total hc ha hb
  le_object c := ho.isSubclass_object c
  object_le_iff _ := ho.object_isSubclass_iff
  -- the class of a value is one of the graph, so tests above it can be put together
  hasType_mono v c d hcd hv := by
    rw [hasType_ofClass] at hv ⊢
    exact ho.isSubclass_trans (contains_classOf ho.builtIns v) hv hcd
  hasType_object v := by
    rw [TypeSpec.builtIn, hasType_ofClass]
    exact ho.isSubclass_object _

namespace World

/-! ### Chains that end at `object` -/

/-- **When chains end.** In the realm `i`, after every event of the run, every chain of superclasses
    is finite, visits no class twice and ends at `object`, exactly if no class from outside the
    realm's graph is ever given as a superclass.  The other realms do not matter. -/
theorem rooted_iff_ownSuperclasses (events : List Event) (i : Nat) :
    (∀ past, past <+: events → ∀ g, (run past).graph? i = some g →
        ∀ c, g.contains c = true → g.Rooted c) ↔
      OwnSuperclasses events i := by
  constructor
  · intro hrooted past name c hpast g hg
    rw [← Bool.not_eq_false]
    intro hout
    have hb := hasBuiltIns_run hg
    obtain ⟨plain, hafter⟩ := graph?_makeClass_classObject hg hb name c
    rw [← run_concat] at hafter
    -- the new class is one of the graph after the event, and the first half says that it is rooted
    have hnew : (g.addStandard plain c).contains g.next = true :=
      ClassGraph.contains_addStandard_next
    have hroot := hrooted _ hpast _ hafter _ hnew
    rw [ClassGraph.rooted_iff_endsAt hnew] at hroot
    exact ClassGraph.not_endsAt_object_addStandard_next hb hout hroot
  · intro hown past hpast g hg c hc
    have hownPast : OwnSuperclasses past i := fun before name d hbefore =>
      hown before name d (hbefore.trans hpast)
    exact (ordered_run hownPast hg).rooted hc

/-- Two realms, of which the second makes two classes and the first makes a class under the newer of
    them, whose handle is 38.  The classes are named by symbols that every new realm has. -/
def passedClass : List Event :=
  [.newRealm {}, .newRealm {},
    .perform 1 (.makeClass ⟨1, 0, "message", .vars⟩ (.classObject BuiltinClass.standardObject.id)),
    .perform 1 (.makeClass ⟨1, 1, "datum", .vars⟩ (.classObject BuiltinClass.standardObject.id)),
    .perform 0 (.makeClass ⟨0, 0, "message", .vars⟩ (.classObject ⟨38⟩))]

/-- **A class cut off.** 38 is a class of the second realm, and 37 is the new class of the first,
    whose chain does not end at `object` and which does not pass as a subclass of it. -/
theorem not_rooted_of_passed_class :
    ∃ g h, (run passedClass).graph? 0 = some g ∧ (run passedClass).graph? 1 = some h ∧
      h.contains ⟨38⟩ = true ∧ g.contains ⟨37⟩ = true ∧
      g.isSubclass? ⟨37⟩ BuiltinClass.object = some false ∧ ¬ g.Rooted ⟨37⟩ := by
  have hsplit : passedClass = [.newRealm {}, .newRealm {}] ++ [_] ++ [_] ++ [_] := rfl
  simp only [hsplit, run_concat]
  obtain ⟨g, h, hg, hh, ⟨hb, -⟩, hnext, ⟨hb', -⟩, hnext'⟩ := graph?_run_two_realms {} {}
  -- the second realm's graph grows twice, then the first realm's once
  obtain ⟨m, hh⟩ := graph?_makeClass_classObject hh hb' ⟨1, 0, "message", .vars⟩
    BuiltinClass.standardObject.id
  obtain ⟨d, hh⟩ := graph?_makeClass_classObject hh hb'.addStandard ⟨1, 1, "datum", .vars⟩
    BuiltinClass.standardObject.id
  rw [← graph?_perform_of_ne Nat.one_ne_zero, ← graph?_perform_of_ne Nat.one_ne_zero] at hg
  obtain ⟨x, hg⟩ := graph?_makeClass_classObject hg hb ⟨0, 0, "message", .vars⟩ ⟨38⟩
  rw [← graph?_perform_of_ne Nat.zero_ne_one] at hh
  rw [ClassGraph.next, ClassId.mk.injEq] at hnext hnext'
  have hout : g.contains ⟨38⟩ = false := by
    rw [ClassGraph.contains, hnext]
    rfl
  have hnextId : g.next = ⟨37⟩ := congrArg ClassId.mk hnext
  have hchain : (g.addStandard x ⟨38⟩).Lineage ⟨37⟩ [⟨37⟩, ⟨38⟩] := by
    rw [← hnextId]
    exact ClassGraph.lineage_addStandard_next_of_not_contains hb hout (by rw [hnextId]; decide)
  have hcut : ¬ (g.addStandard x ⟨38⟩).EndsAt ⟨37⟩ BuiltinClass.object.id :=
    hnext ▸ ClassGraph.not_endsAt_object_addStandard_next hb hout
  have hnew : (g.addStandard x ⟨38⟩).contains ⟨37⟩ = true :=
    hnext ▸ ClassGraph.contains_addStandard_next
  refine ⟨_, _, hg, hh, ?_, hnew, ?_, ?_⟩
  · rw [ClassGraph.contains_iff, ClassGraph.size_addStandard, ClassGraph.size_addStandard, hnext']
    decide
  · rw [ClassGraph.isSubclass?_eq_some_false_iff, ClassGraph.resolve_of_contains hnew]
    exact ⟨_, hchain, by decide⟩
  · rw [ClassGraph.rooted_iff_endsAt hnew]
    exact hcut

/-! ### The tree -/

/-- **A tree of classes.** In every run in which a realm is given no superclass from outside its graph,
    its classes are a tree, and a value is of every type above one that it is of. -/
theorem classTree_run {events : List Event} {i : Nat} {r : Realm}
    (hr : (run events).realms[i]? = some r) (hown : OwnSuperclasses events i) : r.ClassTree :=
  Realm.classTree_of_ordered (ordered_run hown (graph?_of_realm hr))

/-- A realm that makes a class and another one under it. -/
def ownClasses : List Event :=
  [.newRealm {},
    .perform 0 (.makeClass ⟨0, 0, "message", .vars⟩ (.classObject BuiltinClass.standardObject.id)),
    .perform 0 (.makeClass ⟨0, 1, "datum", .vars⟩ (.classObject ⟨37⟩))]

/-- The laws hold in such a realm, which has the class 38. -/
theorem classTree_of_two_classes :
    ∃ r, (run ownClasses).realms[0]? = some r ∧ OwnSuperclasses ownClasses 0 ∧
      r.classes.contains ⟨38⟩ = true ∧ r.ClassTree := by
  have hsplit : ownClasses = [.newRealm {}] ++ [_] ++ [_] := rfl
  obtain ⟨g, hg, ⟨hb, -⟩, hnext⟩ := graph?_run_newRealm {}
  rw [ClassGraph.next, ClassId.mk.injEq] at hnext
  obtain ⟨m, hm⟩ := graph?_makeClass_classObject hg hb ⟨0, 0, "message", .vars⟩
    BuiltinClass.standardObject.id
  obtain ⟨d, hd⟩ := graph?_makeClass_classObject hm hb.addStandard ⟨0, 1, "datum", .vars⟩ ⟨37⟩
  -- the superclass of each class is there before the class is
  have hown : OwnSuperclasses ownClasses 0 := by
    simp only [hsplit, ownSuperclasses_concat, run_concat, hg, hm]
    refine ⟨⟨ownSuperclasses_newRealm {} 0, ?_⟩, ?_⟩
    · rintro _ _ ⟨⟩ _ ⟨⟩
      exact hb.contains_id .standardObject
    · rintro _ _ ⟨⟩ _ ⟨⟩
      rw [ClassGraph.contains_iff, ClassGraph.size_addStandard, hnext]
      decide
  obtain ⟨r, hr, hclasses⟩ := graph?_eq_some_iff.mp hd
  have hrun : (run ownClasses).realms[0]? = some r := by
    rw [hsplit, run_concat, run_concat, hr]
  refine ⟨r, hrun, hown, ?_, classTree_run hrun hown⟩
  rw [hclasses, ClassGraph.contains_iff, ClassGraph.size_addStandard, ClassGraph.size_addStandard,
    hnext]
  decide

end World

end LispObjects
