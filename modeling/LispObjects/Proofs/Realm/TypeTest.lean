import LispObjects.Proofs.Class.Order
import LispObjects.Realm.Basic

namespace LispObjects.Realm

/-!
# Type tests against built-in classes

What the class graph answers when a value is tested against a built-in class.  For the kinds of
value whose class is fixed the table of built-in classes decides alone
(`hasType_builtIn_of_kind`); class values are instances of `class` (`hasType_classObject`), and of
the standard objects those whose class stands under it (`hasType_class_iff`).  A value that is not of the
kind of a built-in class can only be a standard object if it is an instance of that class all the same
(`hasType_builtIn_iff_of_lacksKind`).  A value's own class is never from outside the graph
(`contains_classOf`).

The search that a test makes ends on every chain that does (`hasType?_eq_some`), and then with the answer of
the test (`hasType_of_hasType?`).
-/

variable {r : Realm} {v : Value} {b d : BuiltinClass} {c : ClassId} {spec : TypeSpec}

/-- A test against a class asks where the value's own class stands. -/
theorem hasType_ofClass (r : Realm) (v : Value) (c : ClassId) :
    r.hasType v (.ofClass c) = r.isSubclass (r.classOf v) c := by
  simp [hasType, TypeSpec.accepts]

/-- A union of two accepts what either does. -/
theorem hasType_oneOf_pair (r : Realm) (v : Value) (s t : TypeSpec) :
    r.hasType v (.oneOf [s, t]) = (r.hasType v s || r.hasType v t) := by
  rw [hasType, TypeSpec.accepts, TypeSpec.acceptsOneOf_eq_any]
  simp [hasType]

/-- A value of a kind of its own is an instance of the kind's class. -/
theorem classOf_of_kind (h : v.builtinClass? = some b) : r.classOf v = b.id := by
  cases v with
  | classObject _ => cases h
  | object _ => cases h
  | _ => rw [classOf, h, Option.getD_some] <;> exact fun _ h => by cases h

/-- **Fixed kinds.** The table decides the test, whatever else is in the graph. -/
theorem hasType_builtIn_of_kind (hb : r.classes.HasBuiltIns) (h : v.builtinClass? = some b)
    (d : BuiltinClass) : r.hasType v (.builtIn d) = decide (d ∈ b.lineage) := by
  rw [TypeSpec.builtIn, hasType_ofClass, classOf_of_kind h]
  exact hb.isSubclass_id b d

/-- A class is an instance of `class`, whatever handle it is given by. -/
theorem hasType_classObject (hb : r.classes.HasBuiltIns) (c : ClassId) :
    r.hasType (.classObject c) (.builtIn .classObject) = true := by
  rw [TypeSpec.builtIn, hasType_ofClass]
  show r.classes.isSubclass (r.record c).metaclass.asClass.id BuiltinClass.classObject.id = true
  rw [hb.isSubclass_id]
  cases (r.record c).metaclass <;> decide

/-- A standard object is an instance of what its class stands under. -/
theorem hasType_object (o : StandardObject) (c : ClassId) :
    r.hasType (.object o) (.ofClass c) = r.isSubclass o.classId c := by
  rw [hasType_ofClass]
  exact ClassGraph.isSubclass_congr (ClassGraph.resolve_resolve _ _) c

/-- No value of a fixed kind is an instance of `class`. -/
theorem not_hasType_class_of_kind (hb : r.classes.HasBuiltIns) (h : v.builtinClass? = some b) :
    r.hasType v (.builtIn .classObject) = false := by
  rw [hasType_builtIn_of_kind hb h]
  cases v <;> cases h <;> decide

/-- **Instances of `class`.** They are the classes, and the standard objects whose class stands
    under `class`. -/
theorem hasType_class_iff (hb : r.classes.HasBuiltIns) :
    r.hasType v (.builtIn .classObject) = true ↔
      (∃ c, v = .classObject c) ∨
        ∃ o, v = .object o ∧ r.isSubclass o.classId BuiltinClass.classObject = true := by
  constructor
  · intro h
    cases v with
    | classObject c => exact .inl ⟨c, rfl⟩
    | object o => exact .inr ⟨o, rfl, hasType_object o _ ▸ h⟩
    | _ => rw [not_hasType_class_of_kind hb rfl] at h; cases h
  · rintro (⟨c, rfl⟩ | ⟨o, rfl, h⟩)
    · exact hasType_classObject hb c
    · rw [TypeSpec.builtIn, hasType_object, h]

/-- The class of a value is always one of the graph. -/
theorem contains_classOf (hb : r.classes.HasBuiltIns) (v : Value) :
    r.classes.contains (r.classOf v) = true := by
  cases v with
  | object o => exact ClassGraph.contains_resolve hb.size_pos o.classId
  | classObject c => exact hb.contains_id _
  | _ => exact hb.contains_id _

/-! ### Values of another kind -/

/-- The value is not of a kind whose class is `b` or stands under it. -/
def LacksKind (b : BuiltinClass) (v : Value) : Prop :=
  ∀ k, v.builtinClass? = some k → b ∉ k.lineage

/-- **Instances of another kind** are standard objects whose class stands under the built-in class, if
that is not one of the classes of classes. -/
theorem hasType_builtIn_iff_of_lacksKind (hb : r.classes.HasBuiltIns) (hv : LacksKind b v)
    (hmeta : ∀ m : Metaclass, b ∉ m.asClass.lineage) :
    r.hasType v (.builtIn b) = true ↔ ∃ o, v = .object o ∧ r.isSubclass o.classId b = true := by
  have hkind : ∀ k, v.builtinClass? = some k → r.hasType v (.builtIn b) = false := by
    intro k hk
    rw [hasType_builtIn_of_kind hb hk, decide_eq_false (hv k hk)]
  -- besides its kind only the class of an object and the metaclass of a class can place a value
  cases v with
  | object o =>
    rw [TypeSpec.builtIn, hasType_object]
    simp
  | classObject c =>
    have hnot : r.hasType (.classObject c) (.builtIn b) = false := by
      rw [TypeSpec.builtIn, hasType_ofClass]
      show r.classes.isSubclass (r.record c).metaclass.asClass.id b.id = false
      rw [hb.isSubclass_id, decide_eq_false (hmeta _)]
    simp [hnot]
  | _ => rw [hkind _ rfl]; simp

/-- Which values are of a type depends on the classes alone. -/
theorem hasType_congr {r' : Realm} (h : r'.classes = r.classes) (v : Value) (spec : TypeSpec) :
    r'.hasType v spec = r.hasType v spec := by
  have hclass : r'.classOf v = r.classOf v := by
    cases v with
    | object o => rw [classOf, classOf, h]
    | classObject c =>
      rw [classOf, classOf, metaclassOf, metaclassOf, record, record, h]
      cases r.classes.get? c <;> rfl
    | _ => rfl
  have hsub : r'.isSubclass (r'.classOf v) = r.isSubclass (r.classOf v) := by
    rw [hclass]
    funext c
    rw [isSubclass, isSubclass, h]
  rw [hasType, hasType, hsub]

/-! ### Searches -/

/-- The test says what is found out. -/
theorem hasType_of_hasType? {fits : Bool} (h : r.hasType? v spec = some fits) :
    r.hasType v spec = fits :=
  TypeSpec.accepts_of_accepts? h

/-- **Searches end** if the chain of the value's class does. -/
theorem hasType?_eq_some {l : List ClassId}
    (h : r.classes.Lineage (r.classes.resolve (r.classOf v)) l) (spec : TypeSpec) :
    r.hasType? v spec = some (r.hasType v spec) :=
  TypeSpec.accepts?_eq_some (fun c => ClassGraph.isSubclass?_eq_some h c) spec

/-- Every search ends if the classes are ordered. -/
theorem hasType?_eq_some_of_ordered (ho : r.classes.Ordered) (v : Value) (spec : TypeSpec) :
    r.hasType? v spec = some (r.hasType v spec) := by
  obtain ⟨l, hl, -⟩ := ho.endsAt_object
    (ClassGraph.contains_resolve ho.builtIns.size_pos (r.classOf v))
  exact hasType?_eq_some hl spec

/-- Only a standard object can be an instance of another class than the built-in ones. -/
theorem exists_classOf_eq_id (hv : ∀ o, v ≠ .object o) : ∃ b : BuiltinClass, r.classOf v = b.id := by
  cases v with
  | object o => exact absurd rfl (hv o)
  | _ => exact ⟨_, rfl⟩

/-- The search ends for every other value. -/
theorem hasType?_eq_some_of_ne_object (hb : r.classes.HasBuiltIns) (hv : ∀ o, v ≠ .object o)
    (spec : TypeSpec) : r.hasType? v spec = some (r.hasType v spec) := by
  obtain ⟨b, hclass⟩ := exists_classOf_eq_id (r := r) hv
  exact hasType?_eq_some (hclass ▸ hb.lineage_resolve_id b) spec

/-- For a standard object the search is that from its class. -/
theorem hasType?_object (o : StandardObject) (c : ClassId) :
    r.hasType? (.object o) (.ofClass c) = r.classes.isSubclass? o.classId c := by
  show r.classes.isSubclass? (r.classes.resolve o.classId) c = _
  rw [ClassGraph.isSubclass?, ClassGraph.resolve_resolve, ClassGraph.isSubclass?]

end LispObjects.Realm
