import LispObjects.Proofs.Class.Extension
import LispObjects.Proofs.Symbol.Interns

namespace LispObjects

/-!
# Well-formed realms

What ties the symbols of a realm to its classes.  The realm's own names and the names of its classes
are its symbols, and the classes that are not built in are standard ones, numbered by their tokens.

* `Realm.WellFormed` — the invariant;
* `Realm.wellFormed_boot` — a new realm is well-formed;
* `Realm.WellFormed.intern`, `Realm.WellFormed.addStandard` — interning and one more class keep it;
* `Realm.WellFormed.representation_inj` — no two classes have the same representation.
-/

/-- The symbols, names and classes of a realm fit together. -/
structure Realm.WellFormed (r : Realm) : Prop where
  symbols : r.symbols.WellFormed
  names : r.names.FoundIn r.symbols
  builtIns : r.classes.HasBuiltIns
  /-- The name of every class is a variable symbol of the realm. -/
  recordName : ∀ record ∈ r.classes.records,
    r.symbols.find? record.name.name .vars = some record.name
  /-- A class that is not built in is standard, and its token tells how many there were before it. -/
  made : ∀ n record, r.classes.records[BuiltinClass.all.length + n]? = some record →
    record.metaclass = .standard ∧ record.representation = .token n
  size_eq : r.classes.size = BuiltinClass.all.length + r.classes.nextToken

variable {r : Realm} {config : Config} {tableId : Nat} {h : Heap}

/-! ### New realms -/

namespace ClassGraph

/-- A built-in class is recorded under the symbol of its name. -/
theorem record_eq_internFor : BuiltinClass.record = internFor BuiltinClass.name .vars fun c name =>
    ⟨name, c.superclass?.map BuiltinClass.id, c.metaclass, .builtIn c⟩ := rfl

/-- Recording the built-in classes interns their names and does nothing else to the table. -/
theorem onlyInterns_builtIn : OnlyInterns builtIn := by
  unfold builtIn
  rw [record_eq_internFor]
  exact .bind (.mapM (onlyInterns_internFor _ _ _) _) fun _ => .pure _

/-- What making the records leaves of the table is what making the graph leaves of it. -/
theorem symbols_builtIn (t : SymbolTable) :
    (builtIn.run t).2 = ((BuiltinClass.all.mapM BuiltinClass.record).run t).2 := by
  unfold builtIn
  generalize BuiltinClass.all = cs
  rfl

/-- The name of a record is found under its text ever after. -/
theorem find?_name_of_mem_records {t t' : SymbolTable} (ht' : (builtIn.run t).2.Extends t')
    {record : ClassRecord} (h : record ∈ (builtIn.run t).1.records) :
    t'.find? record.name.name .vars = some record.name := by
  rw [symbols_builtIn] at ht'
  rw [records_builtIn, List.mem_toArray] at h
  generalize BuiltinClass.all = cs at ht' h
  rw [record_eq_internFor] at ht' h
  obtain ⟨hresults, hfound⟩ := mapM_internFor_run _ _ _ _ _ ht'
  rw [hresults, List.mem_map] at h
  obtain ⟨c, hc, rfl⟩ := h
  show t'.find? (t'.intern c.name .vars).1.name .vars = some (t'.intern c.name .vars).1
  rw [SymbolTable.name_intern]
  exact hfound c hc

/-- No token is taken yet. -/
theorem nextToken_builtIn (t : SymbolTable) : (builtIn.run t).1.nextToken = 0 := by
  unfold builtIn
  generalize BuiltinClass.all = cs
  rfl

end ClassGraph

namespace Realm

/-- A built-in class is bound under its name as a class. -/
theorem binding_eq_internFor : BuiltinClass.binding =
    internFor BuiltinClass.name .classes fun c key => (key, .classObject c.id) := rfl

/-- Binding the built-in classes interns their names too. -/
theorem onlyInterns_bindings : OnlyInterns (BuiltinClass.all.mapM BuiltinClass.binding) := by
  rw [binding_eq_internFor]
  exact .mapM (onlyInterns_internFor _ _ _) _

/-- A realm whose names, classes and registrations are made by the given computations. -/
def bootWith (naming : StateM SymbolTable Names) (recording : StateM SymbolTable ClassGraph)
    (registering : StateM SymbolTable (List (Symbol × Value))) (config : Config) (tableId : Nat)
    (h : Heap) : Realm × Heap :=
  let names := naming.run (.empty tableId)
  let classes := recording.run names.2
  let bindings := registering.run classes.2
  let root := h.newEnvironment none
  ({ symbols := bindings.2, classes := classes.1, root := root.1, names := names.1, config },
    bindings.1.foldl (fun h b => h.bind root.1 b.1 b.2) root.2)

/-- The computations of a new realm are large, and proofs about its parts do not look into them. -/
theorem boot_eq_bootWith : boot =
    bootWith Names.intern ClassGraph.builtIn (BuiltinClass.all.mapM BuiltinClass.binding) := by
  unfold boot bootWith
  rfl

/-- The parts of such a realm, by the tables that the computations begin with. -/
theorem exists_bootWith (naming : StateM SymbolTable Names) (recording : StateM SymbolTable ClassGraph)
    (registering : StateM SymbolTable (List (Symbol × Value))) (config : Config) (tableId : Nat)
    (h : Heap) :
    ∃ t t', (naming.run (.empty tableId)).2 = t ∧ (recording.run t).2 = t' ∧
      (bootWith naming recording registering config tableId h).1.names =
        (naming.run (.empty tableId)).1 ∧
      (bootWith naming recording registering config tableId h).1.classes = (recording.run t).1 ∧
      (bootWith naming recording registering config tableId h).1.symbols =
        (registering.run t').2 :=
  ⟨_, _, rfl, rfl, rfl, rfl, rfl⟩

/-- A new realm's symbols are made by naming, then by making the classes, then by registering them. -/
theorem exists_boot (config : Config) (tableId : Nat) (h : Heap) :
    ∃ t t', (boot config tableId h).1.names.FoundIn t ∧ t.WellFormed ∧ t.id = tableId ∧
      (boot config tableId h).1.classes = (ClassGraph.builtIn.run t).1 ∧
      (ClassGraph.builtIn.run t).2 = t' ∧
      (boot config tableId h).1.symbols =
        ((BuiltinClass.all.mapM BuiltinClass.binding).run t').2 := by
  have hfound := Names.foundIn_intern (.empty tableId)
  have hwell := Names.onlyInterns_intern.wellFormed_run (SymbolTable.wellFormed_empty tableId)
  have hid := Names.onlyInterns_intern.id_run (.empty tableId)
  rw [boot_eq_bootWith]
  obtain ⟨t, t', ht, ht', hnames, hclasses, hsymbols⟩ := exists_bootWith Names.intern
    ClassGraph.builtIn (BuiltinClass.all.mapM BuiltinClass.binding) config tableId h
  rw [ht] at hfound hwell hid
  rw [← hnames] at hfound
  exact ⟨t, t', hfound, hwell, hid, hclasses, ht', hsymbols⟩

/-- The symbol table of a new realm is known by the number given. -/
theorem tableId_boot (config : Config) (tableId : Nat) (h : Heap) :
    (boot config tableId h).1.symbols.id = tableId := by
  obtain ⟨t, t', -, -, ht, -, ht', hsymbols⟩ := exists_boot config tableId h
  rw [hsymbols, onlyInterns_bindings.id_run, ← ht', ClassGraph.onlyInterns_builtIn.id_run, ht]

/-- The root environment of a new realm is new, and its classes are registered in it. -/
theorem exists_registration_bootWith (naming : StateM SymbolTable Names)
    (recording : StateM SymbolTable ClassGraph)
    (registering : StateM SymbolTable (List (Symbol × Value))) (config : Config) (tableId : Nat)
    (h : Heap) :
    ∃ t, (bootWith naming recording registering config tableId h).1.symbols =
        (registering.run t).2 ∧
      (bootWith naming recording registering config tableId h).1.root = (h.newEnvironment none).1 ∧
      (bootWith naming recording registering config tableId h).2 =
        (registering.run t).1.foldl (fun h' b => h'.bind (h.newEnvironment none).1 b.1 b.2)
          (h.newEnvironment none).2 :=
  ⟨_, rfl, rfl, rfl⟩

/-- **Registrations.** In the root environment of a new realm, which is new itself, every built-in
    class is bound to the symbol of its name as a class. -/
theorem registration_boot (config : Config) (tableId : Nat) (h : Heap) :
    (boot config tableId h).1.root = (h.newEnvironment none).1 ∧
      (boot config tableId h).2 =
        (BuiltinClass.all.map fun c =>
            (((boot config tableId h).1.symbols.intern c.name .classes).1,
              Value.classObject c.id)).foldl
          (fun h' b => h'.bind (h.newEnvironment none).1 b.1 b.2) (h.newEnvironment none).2 ∧
      ∀ c ∈ BuiltinClass.all, (boot config tableId h).1.symbols.find? c.name .classes =
        some ((boot config tableId h).1.symbols.intern c.name .classes).1 := by
  rw [boot_eq_bootWith]
  obtain ⟨t, hsymbols, hroot, hheap⟩ := exists_registration_bootWith Names.intern
    ClassGraph.builtIn (BuiltinClass.all.mapM BuiltinClass.binding) config tableId h
  generalize bootWith _ _ _ config tableId h = booted at hsymbols hroot hheap ⊢
  generalize BuiltinClass.all = cs at hsymbols hheap ⊢
  rw [binding_eq_internFor] at hsymbols hheap
  have hextends := SymbolTable.Extends.refl booted.1.symbols
  nth_rewrite 1 [hsymbols] at hextends
  obtain ⟨hresults, hfound⟩ := mapM_internFor_run _ _ _ _ _ hextends
  rw [hheap, hresults]
  exact ⟨hroot, rfl, hfound⟩

/-- **New realms** are well-formed. -/
theorem wellFormed_boot (config : Config) (tableId : Nat) (h : Heap) :
    (boot config tableId h).1.WellFormed := by
  obtain ⟨t, t', hnames, hwell, -, hclasses, ht', hsymbols⟩ := exists_boot config tableId h
  generalize boot config tableId h = booted at hnames hclasses hsymbols ⊢
  -- each step only adds to the table that the step before it left
  have hrecorded := ClassGraph.onlyInterns_builtIn.extends_run t
  have hregistered := onlyInterns_bindings.extends_run t'
  rw [← hsymbols] at hregistered
  rw [ht'] at hrecorded
  refine
    { symbols := ?_
      names := hnames.of_extends (hrecorded.trans hregistered)
      builtIns := ?_
      recordName := ?_
      made := ?_
      size_eq := ?_ }
  · rw [hsymbols]
    exact onlyInterns_bindings.wellFormed_run
      (ht' ▸ ClassGraph.onlyInterns_builtIn.wellFormed_run hwell)
  · rw [hclasses]
    exact ClassGraph.hasBuiltIns_builtIn t
  · intro record hrecord
    rw [hclasses] at hrecord
    rw [← ht'] at hregistered
    exact ClassGraph.find?_name_of_mem_records hregistered hrecord
  · -- there are no other classes yet
    intro n record hrecord
    obtain ⟨hlt, -⟩ := Array.getElem?_eq_some_iff.mp hrecord
    have hsize : booted.1.classes.size = BuiltinClass.all.length := by
      rw [hclasses, ClassGraph.size_builtIn]
    rw [ClassGraph.size] at hsize
    omega
  · rw [hclasses, ClassGraph.size_builtIn, ClassGraph.nextToken_builtIn]
    rfl

/-! ### What keeps realms well-formed -/

namespace WellFormed

/-- A symbol more does no harm. -/
theorem intern (hr : r.WellFormed) (name : String) (space : Namespace) :
    { r with symbols := (r.symbols.intern name space).2 : Realm }.WellFormed where
  symbols := hr.symbols.intern name space
  names := hr.names.of_extends (r.symbols.extends_intern name space)
  builtIns := hr.builtIns
  recordName record hrecord :=
    SymbolTable.find?_intern_of_find? (hr.recordName record hrecord) name space
  made := hr.made
  size_eq := hr.size_eq

/-- A class is added under a variable symbol of the realm. -/
theorem addStandard (hr : r.WellFormed) {name : Symbol}
    (hname : r.symbols.find? name.name .vars = some name) (s : ClassId) :
    { r with classes := r.classes.addStandard name s : Realm }.WellFormed where
  symbols := hr.symbols
  names := hr.names
  builtIns := hr.builtIns.addStandard
  recordName record hrecord := by
    rcases Array.mem_push.mp hrecord with hold | rfl
    · exact hr.recordName record hold
    · exact hname
  made n record hrecord := by
    have hsize : r.classes.records.size = BuiltinClass.all.length + r.classes.nextToken := hr.size_eq
    rw [ClassGraph.addStandard, Array.getElem?_push] at hrecord
    split at hrecord
    · -- the new class comes after as many others as tokens were given
      next hnew =>
      have hn : n = r.classes.nextToken := by omega
      cases hrecord
      exact ⟨rfl, congrArg _ hn.symm⟩
    · exact hr.made n record hrecord
  size_eq := by
    have hsize := hr.size_eq
    show (r.classes.addStandard name s).size = BuiltinClass.all.length + (r.classes.nextToken + 1)
    rw [ClassGraph.size_addStandard]
    omega

/-! ### What it says of classes -/

/-- The record at a position is that of a built-in class, or of one that was made later. -/
theorem getElem?_cases (hr : r.WellFormed) {i : Nat} {record : ClassRecord}
    (h : r.classes.records[i]? = some record) :
    (∃ c : BuiltinClass, i = c.id.index ∧ record.IsRowOf c) ∨
      ∃ n, i = BuiltinClass.all.length + n ∧ record.metaclass = .standard ∧
        record.representation = .token n := by
  by_cases hi : i < BuiltinClass.all.length
  · obtain ⟨c, hc⟩ := BuiltinClass.exists_eq_id_of_lt (h := ⟨i⟩) hi
    obtain ⟨row, hrow, hisRow⟩ := hr.builtIns c
    rw [← hc, h, Option.some.injEq] at hrow
    exact .inl ⟨c, congrArg ClassId.index hc, hrow ▸ hisRow⟩
  · obtain ⟨n, rfl⟩ := Nat.exists_eq_add_of_le (Nat.le_of_not_lt hi)
    exact .inr ⟨n, rfl, hr.made n record h⟩

/-- **Representations** belong to one class each. -/
theorem representation_inj (hr : r.WellFormed) {i j : Nat} {record record' : ClassRecord}
    (h : r.classes.records[i]? = some record) (h' : r.classes.records[j]? = some record')
    (hsame : record.representation = record'.representation) : i = j := by
  rcases hr.getElem?_cases h with ⟨c, rfl, hc⟩ | ⟨n, rfl, -, hn⟩ <;>
    rcases hr.getElem?_cases h' with ⟨d, rfl, hd⟩ | ⟨m, rfl, -, hm⟩
  · rw [hc.representation, hd.representation, Representation.builtIn.injEq] at hsame
    rw [hsame]
  · rw [hc.representation, hm] at hsame
    cases hsame
  · rw [hn, hd.representation] at hsame
    cases hsame
  · rw [hn, hm, Representation.token.injEq] at hsame
    rw [hsame]

end WellFormed

end Realm

end LispObjects
