import LispObjects.Proofs.Action.MakeClass
import LispObjects.Proofs.Action.RealmFrame
import LispObjects.Proofs.Realm.WellFormed

namespace LispObjects

/-!
# What operations make of a realm

An operation hands out symbols, and at most adds one class under a variable symbol that it has handed
out.  What both steps keep of a realm every operation keeps.

* `Image.realm_perform_induction` — that principle;
* `Image.wellFormed_perform` — well-formed realms stay so;
* `Realm.Extends`, `Image.extends_perform` — symbols and classes are only ever added, and the root
  environment, the names and the configuration stay.
-/

variable {image : Image} {r r' r'' : Realm}

/-- A name that was interned as a variable is found after it was interned as a class. -/
theorem SymbolTable.find?_convert_convert (t : SymbolTable) (name : Symbol) :
    ((t.convert name .vars).2.convert (t.convert name .vars).1 .classes).2.find?
        (t.convert name .vars).1.name .vars =
      some (t.convert name .vars).1 := by
  have hname : (t.convert name .vars).1.name = name.name := t.name_intern name.name .vars
  have hfound := t.find?_intern name.name .vars
  rw [hname]
  exact find?_intern_of_find? hfound _ .classes

/-- **The steps of an operation.** What interning keeps, and adding a class of a known name keeps, is
    kept by performing any operation, whether or not it fails. -/
theorem Image.realm_perform_induction {P : Realm → Prop}
    (intern : ∀ (r : Realm) name space, P r →
      P { r with symbols := (r.symbols.intern name space).2 })
    (add : ∀ (r : Realm) name s, r.symbols.find? name.name .vars = some name → P r →
      P { r with classes := r.classes.addStandard name s })
    (image : Image) (op : Operation) (h : P image.realm) : P (image.perform op).2.realm := by
  by_cases hmake : ∃ name v, op = .makeClass name v
  · obtain ⟨name, v, rfl⟩ := hmake
    cases htype : image.realm.hasType v (.builtIn .classObject) with
    | true =>
      rw [perform_makeClass_ok image name htype]
      exact add _ _ _ (image.realm.symbols.find?_convert_convert name)
        (intern _ _ _ (intern _ _ _ h))
    | false =>
      rw [realm_perform, Operation.action, Action.runOn_bind,
        Action.makeClass_of_not_hasType htype]
      exact h
  · have hkeep : ∀ name v, op ≠ .makeClass name v := fun name v hop => hmake ⟨name, v, hop⟩
    -- keeping `P` is a preorder that interning keeps, so the footprints apply to it
    let Q (r r' : Realm) : Prop := P r → P r'
    have hframe : RealmFrame Q :=
      { refl := fun _ hr => hr
        trans := fun _ _ _ h h' hr => h' (h hr)
        intern := intern }
    rw [realm_perform]
    exact Operation.keeps_realm (Q := Q) hkeep image h

/-- **Invariant.** A well-formed realm is so after every operation. -/
theorem Image.wellFormed_perform (h : image.realm.WellFormed) (op : Operation) :
    (image.perform op).2.realm.WellFormed :=
  realm_perform_induction (fun _ name space hr => hr.intern name space)
    (fun _ _ s hname hr => hr.addStandard hname s) image op h

/-! ### Growth of a realm -/

/-- Symbols and classes may have been added; all else is as it was. -/
structure Realm.Extends (r r' : Realm) : Prop where
  tableId : r'.symbols.id = r.symbols.id
  symbols : r.symbols.Extends r'.symbols
  records : r.classes.records.toList <+: r'.classes.records.toList
  root : r'.root = r.root
  names : r'.names = r.names
  config : r'.config = r.config

/-- A realm extends itself. -/
theorem Realm.Extends.refl (r : Realm) : r.Extends r :=
  ⟨rfl, .refl _, List.prefix_rfl, rfl, rfl, rfl⟩

/-- Extensions of extensions are extensions. -/
theorem Realm.Extends.trans (h : r.Extends r') (h' : r'.Extends r'') : r.Extends r'' where
  tableId := h'.tableId.trans h.tableId
  symbols := h.symbols.trans h'.symbols
  records := h.records.trans h'.records
  root := h'.root.trans h.root
  names := h'.names.trans h.names
  config := h'.config.trans h.config

/-- A symbol more is an extension. -/
theorem Realm.extends_intern (r : Realm) (name : String) (space : Namespace) :
    r.Extends { r with symbols := (r.symbols.intern name space).2 } :=
  ⟨SymbolTable.id_intern _ _ _, r.symbols.extends_intern name space, List.prefix_rfl, rfl, rfl, rfl⟩

/-- A class more is an extension. -/
theorem Realm.extends_addStandard (r : Realm) (name : Symbol) (s : ClassId) :
    r.Extends { r with classes := r.classes.addStandard name s } := by
  refine ⟨rfl, .refl _, ?_, rfl, rfl, rfl⟩
  rw [ClassGraph.addStandard, Array.toList_push]
  exact List.prefix_append _ _

/-- **Growth.** An operation takes nothing away from its realm. -/
theorem Image.extends_perform (image : Image) (op : Operation) :
    image.realm.Extends (image.perform op).2.realm :=
  realm_perform_induction (P := image.realm.Extends)
    (fun r name space h => h.trans (r.extends_intern name space))
    (fun r name s _ h => h.trans (r.extends_addStandard name s)) image op (.refl _)

end LispObjects
