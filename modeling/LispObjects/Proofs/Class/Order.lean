import LispObjects.Proofs.Class.Extension

namespace LispObjects.ClassGraph

open Relation

/-!
# The order of classes

A graph is *ordered* if every class but `object` is recorded with a superclass of smaller handle.
That is the invariant that makes classes a tree with `object` at its root: every chain descends in
the handles, so it ends, and it can only end at `object`.

* `Ordered` — the invariant, kept by every new class under a class of the graph
  (`Ordered.addStandard`) and held by the graph of the built-in classes (`ordered_builtIn`);
* `Ordered.endsAt_object`, `Ordered.rooted` — every chain ends at `object`;
* `Ordered.isSubclass?_eq_some`, `Ordered.isSubclass_antisymm`, `Ordered.isSubclass_total` — the
  subclass test always ends, and is the order of a tree;
* `Ordered.isSubclass_addStandard_of_ne`, `Ordered.isSubclass_addStandard_next_iff` — what the subclass
  test says when there is one more class;
* `not_endsAt_object_addStandard_next` — a new class under a handle from outside is cut off from
  `object`.
-/

variable {g : ClassGraph} {a b c d s : ClassId} {name : Symbol}

/-- The graph begins with the built-in classes, and every class but `object` has a superclass
    recorded whose handle is smaller than its own. -/
structure Ordered (g : ClassGraph) : Prop where
  builtIns : g.HasBuiltIns
  superclass_lt : ∀ c, g.contains c = true → c ≠ BuiltinClass.object.id →
    ∃ s, g.superclass? c = some s ∧ s.index < c.index

/-! ### Graphs that are ordered -/

/-- The graph of a new realm is ordered, since the table lists superclasses first. -/
theorem ordered_builtIn (t : SymbolTable) : (builtIn.run t).1.Ordered := by
  have hb := hasBuiltIns_builtIn t
  refine ⟨hb, fun c hc hne => ?_⟩
  rw [contains_iff, size_builtIn] at hc
  -- every handle of this graph is that of a built-in class
  obtain ⟨b, rfl⟩ := BuiltinClass.exists_eq_id_of_lt hc
  have hsup := hb.superclass?_id b
  cases hs : b.superclass? with
  | none =>
    rw [BuiltinClass.superclass?_eq_none_iff.mp hs] at hne
    exact absurd rfl hne
  | some s =>
    rw [hs] at hsup
    exact ⟨s.id, hsup, BuiltinClass.id_superclass_lt hs⟩

namespace Ordered

/-- A new class under a class of the graph keeps the graph ordered. -/
theorem addStandard (ho : g.Ordered) (hs : g.contains s = true) :
    (g.addStandard name s).Ordered := by
  refine ⟨ho.builtIns.addStandard, fun c hc hne => ?_⟩
  rcases contains_addStandard.mp hc with hold | rfl
  · rw [superclass?_addStandard_of_contains hold]
    exact ho.superclass_lt c hold hne
  · exact ⟨s, superclass?_addStandard_next, contains_iff.mp hs⟩

/-! ### Chains -/

/-- A step upward goes to a smaller handle. -/
theorem index_lt_of_super (ho : g.Ordered) (hc : g.contains c = true) (hs : g.Super c s) :
    s.index < c.index := by
  have hne : c ≠ BuiltinClass.object.id := by
    rintro rfl
    rw [Super, ho.builtIns.superclass?_object] at hs
    cases hs
  obtain ⟨t, ht, hlt⟩ := ho.superclass_lt c hc hne
  rw [Super, ht, Option.some.injEq] at hs
  exact hs ▸ hlt

/-- A recorded superclass is a class of the graph. -/
theorem contains_of_super (ho : g.Ordered) (hc : g.contains c = true) (hs : g.Super c s) :
    g.contains s = true :=
  contains_iff.mpr (Nat.lt_trans (ho.index_lt_of_super hc hs) (contains_iff.mp hc))

/-- Above a class of the graph are only classes of the graph. -/
theorem contains_of_reflTransGen (ho : g.Ordered) (hc : g.contains c = true)
    (h : ReflTransGen g.Super c d) : g.contains d = true := by
  induction h with
  | refl => exact hc
  | tail _ hs ih => exact ho.contains_of_super ih hs

/-- Nothing above a class has a larger handle. -/
theorem index_le_of_reflTransGen (ho : g.Ordered) (hc : g.contains c = true)
    (h : ReflTransGen g.Super c d) : d.index ≤ c.index := by
  induction h with
  | refl => exact Nat.le_refl _
  | tail hcd hs ih =>
    have hlt := ho.index_lt_of_super (ho.contains_of_reflTransGen hc hcd) hs
    omega

/-- **Every chain ends at `object`.** By induction on the handle, which each step makes smaller. -/
theorem endsAt_object (ho : g.Ordered) (hc : g.contains c = true) :
    g.EndsAt c BuiltinClass.object.id := by
  induction hn : c.index using Nat.strongRecOn generalizing c with
  | _ n ih =>
    by_cases hobj : c = BuiltinClass.object.id
    · subst hobj
      exact .of_top ho.builtIns.superclass?_object
    · obtain ⟨s, hs, hlt⟩ := ho.superclass_lt c hc hobj
      exact .of_super hs (ih s.index (hn ▸ hlt) (ho.contains_of_super hc hs) rfl)

/-- In an ordered graph every class is rooted. -/
theorem rooted (ho : g.Ordered) (hc : g.contains c = true) : g.Rooted c :=
  (rooted_iff_endsAt hc).mpr (ho.endsAt_object hc)

/-! ### The subclass test -/

/-- Every test ends. -/
theorem isSubclass?_eq_some (ho : g.Ordered) (c d : ClassId) :
    g.isSubclass? c d = some (g.isSubclass c d) := by
  obtain ⟨l, hl, -⟩ := ho.endsAt_object (contains_resolve ho.builtIns.size_pos c)
  exact ClassGraph.isSubclass?_eq_some hl d

/-- Being a subclass is transitive from a class of the graph on. -/
theorem isSubclass_trans (ho : g.Ordered) (ha : g.contains a = true)
    (hab : g.isSubclass a b = true) (hbc : g.isSubclass b c = true) : g.isSubclass a c = true := by
  rw [isSubclass_iff_of_contains ha] at hab ⊢
  have hb := ho.contains_of_reflTransGen ha hab
  exact hab.trans ((isSubclass_iff_of_contains hb).mp hbc)

/-- Being a subclass is antisymmetric, since positions do not grow on the way up. -/
theorem isSubclass_antisymm (ho : g.Ordered) (ha : g.contains a = true)
    (hab : g.isSubclass a b = true) (hba : g.isSubclass b a = true) : a = b := by
  rw [isSubclass_iff_of_contains ha] at hab
  have hb := ho.contains_of_reflTransGen ha hab
  rw [isSubclass_iff_of_contains hb] at hba
  obtain ⟨i⟩ := a
  obtain ⟨j⟩ := b
  have hle := ho.index_le_of_reflTransGen ha hab
  have hge := ho.index_le_of_reflTransGen hb hba
  exact congrArg ClassId.mk (Nat.le_antisymm hge hle)

/-- **Tree order.** Of two classes above one class, one is above the other. -/
theorem isSubclass_total (ho : g.Ordered) (hc : g.contains c = true)
    (ha : g.isSubclass c a = true) (hb : g.isSubclass c b = true) :
    g.isSubclass a b = true ∨ g.isSubclass b a = true := by
  rw [isSubclass_iff_of_contains hc] at ha hb
  rw [isSubclass_iff_of_contains (ho.contains_of_reflTransGen hc ha),
    isSubclass_iff_of_contains (ho.contains_of_reflTransGen hc hb)]
  exact ReflTransGen.total_of_right_unique (super_rightUnique g) ha hb

/-- Every handle passes as a subclass of `object`, those from outside the graph included. -/
theorem isSubclass_object (ho : g.Ordered) (c : ClassId) :
    g.isSubclass c BuiltinClass.object = true := by
  rw [isSubclass_iff_endsAt ho.builtIns.superclass?_object]
  exact ho.endsAt_object (contains_resolve ho.builtIns.size_pos c)

/-- Nothing stands above `object`. -/
theorem object_isSubclass_iff (ho : g.Ordered) :
    g.isSubclass BuiltinClass.object c = true ↔ c = BuiltinClass.object.id := by
  have hobj := ho.builtIns.contains_id .object
  constructor
  · intro h
    exact (ho.isSubclass_antisymm hobj h (ho.isSubclass_object c)).symm
  · rintro rfl
    exact isSubclass_refl hobj

/-! ### One more class -/

/-- A new class changes no chain that begins at an old one. -/
theorem reflTransGen_addStandard_iff (ho : g.Ordered) (hc : g.contains c = true) :
    ReflTransGen (g.addStandard name s).Super c d ↔ ReflTransGen g.Super c d := by
  -- a chain from a class that is there stays among those that are there
  have hsuper {a b : ClassId} (ha : ReflTransGen g.Super c a) :
      (g.addStandard name s).Super a b ↔ g.Super a b := by
    rw [Super, superclass?_addStandard_of_contains (ho.contains_of_reflTransGen hc ha), Super]
  constructor
  · intro h
    induction h with
    | refl => exact .refl
    | tail _ hstep ih => exact ih.tail ((hsuper ih).mp hstep)
  · intro h
    induction h with
    | refl => exact .refl
    | tail ha hstep ih => exact ih.tail ((hsuper ha).mpr hstep)

/-- **Old subclasses.** The subclass test of every handle but the new one is as before. -/
theorem isSubclass_addStandard_of_ne (ho : g.Ordered) (hc : c ≠ g.next) (d : ClassId) :
    (g.addStandard name s).isSubclass c d = g.isSubclass c d := by
  have hold {a : ClassId} (ha : g.contains a = true) :
      (g.addStandard name s).isSubclass a d = g.isSubclass a d := by
    rw [Bool.eq_iff_iff, isSubclass_iff_of_contains (contains_addStandard_of_contains ha),
      ho.reflTransGen_addStandard_iff ha, isSubclass_iff_of_contains ha]
  have hobject := ho.builtIns.contains_id .object
  cases hin : g.contains c with
  | true => exact hold hin
  | false =>
    -- a handle from outside stands for `object` in both graphs
    have hout : (g.addStandard name s).contains c = false := by
      rw [← Bool.not_eq_true, contains_addStandard, hin]
      simpa using hc
    have hresolve : g.resolve c = g.resolve BuiltinClass.object.id := by
      rw [resolve_of_not_contains hin, resolve_of_contains hobject]
    have hresolve' : (g.addStandard name s).resolve c =
        (g.addStandard name s).resolve BuiltinClass.object.id := by
      rw [resolve_of_not_contains hout,
        resolve_of_contains (contains_addStandard_of_contains hobject)]
    rw [isSubclass_congr hresolve, isSubclass_congr hresolve', hold hobject]

/-- **The new class** stands below itself and what its superclass stands below. -/
theorem isSubclass_addStandard_next_iff (ho : g.Ordered) (hs : g.contains s = true) :
    (g.addStandard name s).isSubclass g.next d = true ↔ d = g.next ∨ g.isSubclass s d = true := by
  -- the first step from the new class leads to its superclass
  have hsuper {a : ClassId} : (g.addStandard name s).Super g.next a ↔ s = a := by
    rw [Super, superclass?_addStandard_next, Option.some.injEq]
  rw [isSubclass_iff_of_contains contains_addStandard_next, isSubclass_iff_of_contains hs,
    ReflTransGen.cases_head_iff]
  constructor
  · rintro (hd | ⟨a, ha, hchain⟩)
    · exact .inl hd.symm
    · obtain rfl := hsuper.mp ha
      exact .inr ((ho.reflTransGen_addStandard_iff hs).mp hchain)
  · rintro (hd | hchain)
    · exact .inl hd.symm
    · exact .inr ⟨s, hsuper.mpr rfl, (ho.reflTransGen_addStandard_iff hs).mpr hchain⟩

/-- Above a handle is only what is in the graph. -/
theorem contains_of_isSubclass (ho : g.Ordered) (h : g.isSubclass c d = true) :
    g.contains d = true := by
  have hin := contains_resolve ho.builtIns.size_pos c
  rw [← isSubclass_congr (resolve_resolve g c), isSubclass_iff_of_contains hin] at h
  exact ho.contains_of_reflTransGen hin h

/-- Nothing else stands below the new class. -/
theorem isSubclass_addStandard_next (ho : g.Ordered) (hc : c ≠ g.next) :
    (g.addStandard name s).isSubclass c g.next = false := by
  rw [ho.isSubclass_addStandard_of_ne hc, ← Bool.not_eq_true]
  intro hsub
  have hin := ho.contains_of_isSubclass hsub
  rw [not_contains_next] at hin
  cases hin

end Ordered

/-! ### Superclasses from outside -/

/-- A class that is its own superclass has no end of its chain. -/
theorem not_endsAt_of_super_self (h : g.Super c c) : ¬ g.EndsAt c d := by
  rintro ⟨l, hl, -⟩
  cases hl with
  | top htop => rw [Super, htop] at h; cases h
  | @under _ s m hs up =>
    rw [Super, hs, Option.some.injEq] at h
    subst h
    have hlen := congrArg List.length (up.unique (.under hs up))
    simp at hlen

/-- A new class under a handle that stays outside has only that handle above it. -/
theorem lineage_addStandard_next_of_not_contains (hb : g.HasBuiltIns) (hout : g.contains s = false)
    (hne : s ≠ g.next) : (g.addStandard name s).Lineage g.next [g.next, s] := by
  have hstill : (g.addStandard name s).contains s = false := by
    rw [Bool.eq_false_iff, ne_eq, contains_addStandard, hout]
    simpa using hne
  exact .under superclass?_addStandard_next
    (.top (HasBuiltIns.superclass?_of_not_contains hb.addStandard hstill))

/-- **A handle from outside breaks the chain.** A new class under one is its own superclass, or its
    chain ends at that handle; `object` is never reached. -/
theorem not_endsAt_object_addStandard_next (hb : g.HasBuiltIns) (hout : g.contains s = false) :
    ¬ (g.addStandard name s).EndsAt g.next BuiltinClass.object.id := by
  by_cases hself : s = g.next
  · subst hself
    exact not_endsAt_of_super_self superclass?_addStandard_next
  · intro hobj
    have hl : (g.addStandard name s).Lineage g.next [g.next, s] :=
      lineage_addStandard_next_of_not_contains hb hout hself
    have heq : s = BuiltinClass.object.id := EndsAt.unique ⟨_, hl, rfl⟩ hobj
    rw [heq, hb.contains_id] at hout
    cases hout

end LispObjects.ClassGraph
