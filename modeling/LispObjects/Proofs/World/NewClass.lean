import LispObjects.Proofs.Realm.Registration
import LispObjects.Proofs.World.Environments
import LispObjects.Proofs.World.Superclass

namespace LispObjects

/-!
# What a new class leaves alone

To make a class under a class of the realm adds one class and registers it.  Whatever could be asked of
the realm before has the answer that it had, but for the name that the class is registered under.

* `Realm.ExtendsBy` — all that is different and all that is not, between two states of a realm;
* `World.extendsBy_makeClass` — after any run, a class that is made extends the realm in this way, whatever
  its name was registered for before.
-/

variable {r r' : Realm} {h h' : Heap} {c d s : ClassId} {name : Symbol} {n : String} {v : Value}
  {image : Image}

/-- The value is the class, or an object that was made from it. -/
def Value.NamesClass (c : ClassId) : Value → Prop
  | .classObject d => d = c
  | .object o => o.classId = c
  | _ => False

/-- The realm `r` with the heap `h` has become `r'` with `h'`: it has got the class `c` under `s`, which is
registered as `n`, and nothing else is different. -/
structure Realm.ExtendsBy (r : Realm) (h : Heap) (n : String) (s c : ClassId) (r' : Realm) (h' : Heap) :
    Prop where
  /-- The class is a new one. -/
  fresh : r.classes.contains c = false
  contains_iff : ∀ d, r'.classes.contains d = true ↔ r.classes.contains d = true ∨ d = c
  /-- It is found under its name, and under other names is found what was found there before. -/
  registered : r'.findClass? h' n = some c
  findClass?_eq : ∀ n', n' ≠ n → r'.findClass? h' n' = r.findClass? h n'
  /-- What does not name the new class is of the class that it was of, and every other handle stands for the
  record that it stood for. -/
  classOf_eq : ∀ v : Value, ¬ v.NamesClass c → r'.classOf v = r.classOf v
  record_eq : ∀ d, d ≠ c → r'.record d = r.record d
  slotsOf_eq : ∀ o, h'.slotsOf o = h.slotsOf o
  /-- The new class stands below itself and whatever its superclass stands below, -/
  isSubclass_new_iff : ∀ d, r'.isSubclass c d = true ↔ d = c ∨ r.isSubclass s d = true
  /-- no other handle stands below it, -/
  not_isSubclass_new : ∀ d, d ≠ c → r'.isSubclass d c = false
  /-- and of other handles the subclass test says what it said. -/
  isSubclass_eq : ∀ d, d ≠ c → ∀ e, r'.isSubclass d e = r.isSubclass d e

/-! ### Records -/

/-- Every handle but the next one stands for the record that it stood for. -/
theorem ClassGraph.get?_addStandard_of_ne {g : ClassGraph} (hb : g.HasBuiltIns) (hc : c ≠ g.next) :
    (g.addStandard name s).get? c = g.get? c := by
  cases hin : g.contains c with
  | true => exact get?_addStandard_of_contains hin
  | false =>
    have hout : (g.addStandard name s).contains c = false := by
      rw [← Bool.not_eq_true, contains_addStandard, hin]
      simpa using hc
    have hobject : (g.addStandard name s).get? BuiltinClass.object.id =
        g.get? BuiltinClass.object.id := get?_addStandard_of_contains (hb.contains_id .object)
    rw [← get?_resolve, resolve_of_not_contains hout, hobject, ← g.get?_resolve c,
      resolve_of_not_contains hin]

/-- Every handle but the new one stands for the class it stood for, also as that of an object. -/
theorem ClassGraph.resolve_addStandard_of_ne {g : ClassGraph} (hc : c ≠ g.next) :
    (g.addStandard name s).resolve c = g.resolve c := by
  have hiff : (g.addStandard name s).contains c = g.contains c := by
    rw [Bool.eq_iff_iff, contains_addStandard, or_iff_left hc]
  rw [resolve, resolve, hiff]

namespace Image

/-- The records of the other handles stay, also where they stand for `object`. -/
theorem record_addClass (hb : image.realm.classes.HasBuiltIns) (name : Symbol) (s : ClassId)
    (hd : d ≠ image.realm.classes.next) :
    (image.addClass name s).realm.record d = image.realm.record d := by
  rw [Realm.record, classes_addClass, ClassGraph.get?_addStandard_of_ne hb hd]
  rfl

/-- The classes of all values but the new class itself stay. -/
theorem classOf_addClass (hb : image.realm.classes.HasBuiltIns) (name : Symbol) (s : ClassId)
    (hv : ¬ v.NamesClass image.realm.classes.next) :
    (image.addClass name s).realm.classOf v = image.realm.classOf v := by
  cases v with
  | object o => exact ClassGraph.resolve_addStandard_of_ne hv
  | classObject d =>
    show (Realm.record _ d).metaclass.asClass.id = (Realm.record _ d).metaclass.asClass.id
    rw [record_addClass hb name s hv]
  | _ => rfl

/-! ### Registration -/

/-- The class is found under its name, if the root environment is there. -/
theorem findClass?_addClass_self (hroot : image.heap.frames.Contains image.realm.root.frame)
    (name : Symbol) (s : ClassId) :
    (image.addClass name s).realm.findClass? (image.addClass name s).heap name.name =
      some image.realm.classes.next := by
  let plain := image.realm.symbols.intern name.name .vars
  let key := plain.2.intern plain.1.name .classes
  -- the class's own name is looked up under its key as a class
  have hkey : key.2.find? name.name .classes = some key.1 := by
    have hname : plain.1.name = name.name := SymbolTable.name_intern _ _ _
    rw [← hname]
    exact SymbolTable.find?_intern _ _ _
  have hlookup : (image.addClass name s).heap.lookup? image.realm.root key.1 =
      some (.classObject image.realm.classes.next) := Heap.lookup?_bind_self hroot _ _
  show ((key.2.find? name.name .classes).bind _) = _
  rw [hkey, Option.bind_some]
  show ((image.addClass name s).heap.lookup? image.realm.root key.1).bind _ = _
  rw [hlookup]
  rfl

/-- Under every name but that of the new class is found what was found there before. -/
theorem findClass?_addClass_of_ne {n : String} (hn : n ≠ name.name) (s : ClassId) :
    (image.addClass name s).realm.findClass? (image.addClass name s).heap n =
      image.realm.findClass? image.heap n := by
  let plain := image.realm.symbols.intern name.name .vars
  let key := plain.2.intern plain.1.name .classes
  have hname : plain.1.name = name.name := SymbolTable.name_intern _ _ _
  -- two symbols are interned, neither of which is the class symbol of `n`
  have hfind : key.2.find? n .classes = image.realm.symbols.find? n .classes := by
    rw [SymbolTable.find?_intern_eq, if_neg (fun hpair => hn (hpair.1.trans hname)),
      SymbolTable.find?_intern_eq, if_neg (fun hpair => hn hpair.1)]
  show (key.2.find? n .classes).bind _ = (image.realm.symbols.find? n .classes).bind _
  rw [hfind]
  cases hsymbol : image.realm.symbols.find? n .classes with
  | none => rfl
  | some symbol =>
    have hne : symbol ≠ key.1 := by
      intro heq
      have hsame : symbol.name = key.1.name := congrArg Symbol.name heq
      rw [(SymbolTable.eq_of_find? hsymbol).2, SymbolTable.name_intern, hname] at hsame
      exact hn hsame
    have hlookup : (image.addClass name s).heap.lookup? image.realm.root symbol =
        image.heap.lookup? image.realm.root symbol := Heap.lookup?_bind_of_ne hne
    show ((image.addClass name s).heap.lookup? image.realm.root symbol).bind _ = _
    rw [hlookup]
    rfl

/-! ### The extension -/

/-- **One more class** under a class of an ordered graph. -/
theorem extendsBy_addClass (ho : image.realm.classes.Ordered)
    (hroot : image.heap.frames.Contains image.realm.root.frame)
    (hs : image.realm.classes.contains s = true) (name : Symbol) :
    image.realm.ExtendsBy image.heap name.name s image.realm.classes.next
      (image.addClass name s).realm (image.addClass name s).heap where
  fresh := ClassGraph.not_contains_next _
  contains_iff _ := ClassGraph.contains_addStandard
  registered := findClass?_addClass_self hroot name s
  findClass?_eq _ hn := findClass?_addClass_of_ne hn s
  classOf_eq _ hv := classOf_addClass ho.builtIns name s hv
  record_eq _ hd := record_addClass ho.builtIns name s hd
  slotsOf_eq _ := rfl
  isSubclass_new_iff _ := ho.isSubclass_addStandard_next_iff hs
  not_isSubclass_new _ hd := ho.isSubclass_addStandard_next hd
  isSubclass_eq _ hd _ := ho.isSubclass_addStandard_of_ne hd _

end Image

namespace World

variable {events : List Event} {i : Nat}

/-- **A new class leaves the rest alone.** After every run in which a realm is given no superclass from
outside its graph, and for a name of any namespace, whatever it was registered for. -/
theorem extendsBy_makeClass (hr : (run events).realms[i]? = some r) (hown : OwnSuperclasses events i)
    (hs : r.classes.contains s = true) (name : Symbol) :
    ∃ c r' after, (run events).perform i (.makeClass name (.classObject s)) =
        (some (.ok (.value (.classObject c))), after) ∧
      after.realms[i]? = some r' ∧
      r.ExtendsBy (run events).heap name.name s c r' after.heap := by
  let image : Image := ⟨(run events).heap, r⟩
  have ho : r.classes.Ordered := ordered_run hown (graph?_of_realm hr)
  have hmade := image.perform_makeClass_ok name (Realm.hasType_classObject ho.builtIns s)
  have hperform := perform_of_realm hr (.makeClass name (.classObject s))
  have hafter := realm_perform_self hr (.makeClass name (.classObject s))
  rw [hmade] at hperform hafter
  rw [after, hperform] at hafter
  exact ⟨_, _, _, hperform, hafter, image.extendsBy_addClass ho (built_root hr).contains hs name⟩

/-- A class that is registered under the name of `object`. -/
theorem extendsBy_makeClass_object :
    ∃ r c r' after, (run [.newRealm {}]).realms[0]? = some r ∧
      r.findClass? (run [.newRealm {}]).heap "object" = some BuiltinClass.object.id ∧
      (run [.newRealm {}]).perform 0
          (.makeClass ⟨0, 5, "object", .vars⟩ (.classObject BuiltinClass.standardObject.id)) =
        (some (.ok (.value (.classObject c))), after) ∧
      after.realms[0]? = some r' ∧
      r.ExtendsBy (run [.newRealm {}]).heap "object" BuiltinClass.standardObject.id c r' after.heap := by
  have hr := realm_run_newRealm {}
  have hheap : (run [.newRealm {}]).heap = (Realm.boot {} 0 .empty).2 := heap_newRealm empty {}
  have hfound : (Realm.boot {} 0 .empty).1.findClass? (run [.newRealm {}]).heap "object" =
      some BuiltinClass.object.id := by
    rw [hheap]
    exact Realm.findClass?_boot {} 0 .empty .object
  obtain ⟨c, r', after, hlaws⟩ := extendsBy_makeClass (s := BuiltinClass.standardObject.id) hr
    (ownSuperclasses_newRealm {} 0) ((hasBuiltIns_classes hr).contains_id .standardObject)
    ⟨0, 5, "object", .vars⟩
  exact ⟨_, c, r', after, hr, hfound, hlaws⟩

end World

end LispObjects
