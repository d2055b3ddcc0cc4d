import LispObjects.Proofs.Heap.Chain
import LispObjects.Proofs.Heap.Equality
import LispObjects.Proofs.Realm.WellFormed

namespace LispObjects

/-!
# Reading type specifications back

A specification that is written as data is read back as it was, but for the class `object`, whose name
stands for anything.

* `TypeSpec.general` — the specification that is read back, which accepts the same values wherever
  every class stands under `object` (`TypeSpec.accepts_general`);
* `Realm.Renders r h spec v` — in the heap `h` the value `v` is the data for `spec`, as it is after it was
  made (`Realm.renders_specData`) and while the heap grows (`Realm.Renders.extend`);
* `Realm.specOfData_specData` — reading back, where the names of the classes are registered;
* `Realm.equal_specData` — the data for what is read back is equal data.
-/

namespace TypeSpec

mutual

/-- The specification with `any` in the place of each `object`. -/
def general : TypeSpec → TypeSpec
  | any => any
  | null => null
  | tag name => tag name
  | ofClass c => if c = BuiltinClass.object.id then any else ofClass c
  | oneOf members => oneOf (generalAll members)

/-- Each of the specifications with `any` in the place of `object`. -/
def generalAll : List TypeSpec → List TypeSpec
  | [] => []
  | spec :: rest => spec.general :: generalAll rest

end

/-- An instance of `object` is anything. -/
@[simp] theorem general_object : (ofClass BuiltinClass.object.id).general = any := by
  rw [general, if_pos rfl]

/-- Only `object` is the class of everything. -/
theorem general_ofClass_of_ne {c : ClassId} (h : c ≠ BuiltinClass.object.id) :
    (ofClass c).general = ofClass c := by
  rw [general, if_neg h]

mutual

/-- How many pairs the data for the specification takes. -/
def pairCount : TypeSpec → Nat
  | any => 0
  | null => 0
  | tag _ => 0
  | ofClass _ => 0
  | oneOf members => pairCountAll members + (members.length + 1)

/-- How many pairs the data for all of the specifications take. -/
def pairCountAll : List TypeSpec → Nat
  | [] => 0
  | spec :: rest => spec.pairCount + pairCountAll rest

end

mutual

/-- **Meaning.** Where everything is an instance of `object`, the same values are accepted. -/
theorem accepts_general {instanceOf : ClassId → Bool} (v : Value)
    (hobject : instanceOf BuiltinClass.object = true) :
    ∀ spec : TypeSpec, spec.general.accepts instanceOf v = spec.accepts instanceOf v
  | any => rfl
  | null => rfl
  | tag _ => rfl
  | ofClass c => by
    rw [general]
    split
    · next hc => rw [accepts, accepts, hc, hobject]
    · rfl
  | oneOf members => by
    rw [general, accepts, accepts, acceptsOneOf_generalAll v hobject members]

/-- The same for the members of a union. -/
theorem acceptsOneOf_generalAll {instanceOf : ClassId → Bool} (v : Value)
    (hobject : instanceOf BuiltinClass.object = true) :
    ∀ specs : List TypeSpec,
      acceptsOneOf instanceOf v (generalAll specs) = acceptsOneOf instanceOf v specs
  | [] => rfl
  | spec :: rest => by
    rw [generalAll, acceptsOneOf, acceptsOneOf, accepts_general v hobject spec,
      acceptsOneOf_generalAll v hobject rest]

end

end TypeSpec

namespace Realm

variable {r : Realm} {h h' : Heap} {s : Symbol} {v v' : Value} {items items' : List Value}

/-! ### Data for a specification -/

mutual

/-- The value is the data for the specification. -/
def Renders (r : Realm) (h : Heap) : TypeSpec → Value → Prop
  | .any, v => v = .symbol (r.className BuiltinClass.object)
  | .null, v => v = .string "null"
  | .tag name, v => v = .string name
  | .ofClass c, v => v = .symbol (r.className c)
  | .oneOf members, v =>
    ∃ items, h.IsChain v (.symbol r.names.or :: items) .nil ∧ r.RendersAll h members items

/-- The values are the data for the specifications, one by one. -/
def RendersAll (r : Realm) (h : Heap) : List TypeSpec → List Value → Prop
  | [], items => items = []
  | spec :: rest, items =>
    ∃ v items', items = v :: items' ∧ r.Renders h spec v ∧ r.RendersAll h rest items'

end

mutual

/-- Data stays data while the heap grows. -/
theorem Renders.extend (hext : h.pairs.Extends h'.pairs) :
    ∀ (spec : TypeSpec) (v : Value), r.Renders h spec v → r.Renders h' spec v
  | .any, _, hv => hv
  | .null, _, hv => hv
  | .tag _, _, hv => hv
  | .ofClass _, _, hv => hv
  | .oneOf members, _, ⟨items, hchain, hitems⟩ =>
    ⟨items, hchain.extend hext, RendersAll.extend hext members items hitems⟩

/-- The same for the data of several specifications. -/
theorem RendersAll.extend (hext : h.pairs.Extends h'.pairs) :
    ∀ (specs : List TypeSpec) (items : List Value),
      r.RendersAll h specs items → r.RendersAll h' specs items
  | [], _, hitems => hitems
  | spec :: rest, _, ⟨v, items', hitems, hv, hrest⟩ =>
    ⟨v, items', hitems, Renders.extend hext spec v hv, RendersAll.extend hext rest items' hrest⟩

end

mutual

/-- **Writing** makes data. -/
theorem renders_specData (r : Realm) : ∀ (spec : TypeSpec) (h : Heap),
    r.Renders (r.specData spec h).2 spec (r.specData spec h).1
  | .any, _ => rfl
  | .null, _ => rfl
  | .tag _, _ => rfl
  | .ofClass _, _ => rfl
  | .oneOf members, h => by
    have hitems := rendersAll_specDataList r members h
    have hgrows := (r.specDataList members h).2.grows_chain
      (.symbol r.names.or :: (r.specDataList members h).1) .nil
    exact ⟨(r.specDataList members h).1, Heap.isChain_chain _ _ _,
      RendersAll.extend hgrows.pairs members _ hitems⟩

/-- The list of data for several specifications stands for them. -/
theorem rendersAll_specDataList (r : Realm) : ∀ (specs : List TypeSpec) (h : Heap),
    r.RendersAll (r.specDataList specs h).2 specs (r.specDataList specs h).1
  | [], _ => rfl
  | spec :: rest, h => by
    have hv := renders_specData r spec h
    have hgrows := Heap.grows_specDataList r rest (r.specData spec h).2
    exact ⟨_, _, rfl, Renders.extend hgrows.pairs spec _ hv,
      rendersAll_specDataList r rest (r.specData spec h).2⟩

end

/-- Each specification has its datum. -/
theorem length_specDataList (r : Realm) (specs : List TypeSpec) (h : Heap) :
    (r.specDataList specs h).1.length = specs.length := by
  induction specs generalizing h with
  | nil => rfl
  | cons spec rest ih =>
    show (_ :: (r.specDataList rest (r.specData spec h).2).1).length = _
    rw [List.length_cons, ih, List.length_cons]

mutual

/-- Writing a specification makes a pair for each item of a union, its head included. -/
theorem size_pairs_specData (r : Realm) : ∀ (spec : TypeSpec) (h : Heap),
    (r.specData spec h).2.pairs.size = h.pairs.size + spec.pairCount
  | .any, _ => rfl
  | .null, _ => rfl
  | .tag _, _ => rfl
  | .ofClass _, _ => rfl
  | .oneOf members, h => by
    have hmembers := size_pairs_specDataList r members h
    have hlength := length_specDataList r members h
    have hlist := (r.specDataList members h).2.size_pairs_chain
      (.symbol r.names.or :: (r.specDataList members h).1) .nil
    rw [List.length_cons, hlength, hmembers] at hlist
    -- the pairs of the members, and one for each item of the list with its head
    rw [TypeSpec.pairCount, ← Nat.add_assoc]
    exact hlist

/-- The same for several, one after the other. -/
theorem size_pairs_specDataList (r : Realm) : ∀ (specs : List TypeSpec) (h : Heap),
    (r.specDataList specs h).2.pairs.size = h.pairs.size + TypeSpec.pairCountAll specs
  | [], _ => rfl
  | spec :: rest, h => by
    show (r.specDataList rest (r.specData spec h).2).2.pairs.size = _
    rw [size_pairs_specDataList r rest, size_pairs_specData r spec, TypeSpec.pairCountAll,
      Nat.add_assoc]

end

/-- There are as many data as specifications. -/
theorem RendersAll.length_eq {specs : List TypeSpec} (hitems : r.RendersAll h specs items) :
    items.length = specs.length := by
  induction specs generalizing items with
  | nil =>
    obtain rfl : items = [] := hitems
    rfl
  | cons spec rest ih =>
    obtain ⟨v, items', rfl, -, hrest⟩ := hitems
    rw [List.length_cons, ih hrest, List.length_cons]

/-! ### Reading it back -/

mutual

/-- The tags are not `"null"`, and the classes are those that are registered under their names. -/
def Registered (r : Realm) (h : Heap) : TypeSpec → Prop
  | .any => True
  | .null => True
  | .tag name => name ≠ "null"
  | .ofClass c => r.findClass? h (r.className c).name = some c
  | .oneOf members => r.RegisteredAll h members

/-- That of all of the specifications. -/
def RegisteredAll (r : Realm) (h : Heap) : List TypeSpec → Prop
  | [] => True
  | spec :: rest => r.Registered h spec ∧ r.RegisteredAll h rest

end

mutual

/-- Only what the names find matters. -/
theorem Registered.congr (hfind : ∀ name, r.findClass? h' name = r.findClass? h name) :
    ∀ spec : TypeSpec, r.Registered h spec → r.Registered h' spec
  | .any, _ => trivial
  | .null, _ => trivial
  | .tag _, hname => hname
  | .ofClass _, hc => (hfind _).trans hc
  | .oneOf members, hmembers => RegisteredAll.congr hfind members hmembers

/-- The same for all members of a union. -/
theorem RegisteredAll.congr (hfind : ∀ name, r.findClass? h' name = r.findClass? h name) :
    ∀ specs : List TypeSpec, r.RegisteredAll h specs → r.RegisteredAll h' specs
  | [], _ => trivial
  | spec :: rest, ⟨hspec, hrest⟩ =>
    ⟨Registered.congr hfind spec hspec, RegisteredAll.congr hfind rest hrest⟩

end

/-- Classes are found through the frames. -/
theorem findClass?_congr (hframes : h'.frames = h.frames) (r : Realm) (name : String) :
    r.findClass? h' name = r.findClass? h name := by
  simp only [findClass?, Heap.lookup?, hframes]

/-- The name of a class is a variable symbol, also for a handle from outside. -/
theorem WellFormed.space_className (hr : r.WellFormed) (c : ClassId) :
    (r.className c).space = .vars := by
  rw [className, record]
  cases hrecord : r.classes.get? c with
  | none => exact (SymbolTable.eq_of_find? hr.names.object).1
  | some record =>
    have hmem : record ∈ r.classes.records := Array.mem_of_getElem? hrecord
    exact (SymbolTable.eq_of_find? (hr.recordName record hmem)).1

/-- A built-in class has the name of its row. -/
theorem name_className_builtIn (hb : r.classes.HasBuiltIns) (c : BuiltinClass) :
    (r.className c).name = c.name := by
  obtain ⟨record, hrecord, hrow⟩ := hb.get?_id c
  rw [className, Realm.record, hrecord, Option.getD_some, hrow.name]

/-- A variable symbol is read as the class that is registered under its name. -/
theorem specUpTo_symbol (hspace : s.space = .vars) {c : ClassId}
    (hfind : r.findClass? h s.name = some c) (depth : Nat) :
    r.specUpTo h depth (.symbol s) = .ok (TypeSpec.ofClass c).general := by
  rw [specUpTo, if_pos hspace, hfind, TypeSpec.general]

mutual

/-- Data is read back, if the depth is enough and the heap has room for what it takes. -/
theorem specUpTo_of_renders (hr : r.WellFormed)
    (hobject : r.findClass? h "object" = some BuiltinClass.object.id) :
    ∀ (spec : TypeSpec) (v : Value) (depth : Nat), r.Registered h spec → r.Renders h spec v →
      spec.pairCount ≤ depth → spec.pairCount ≤ h.pairs.size →
        r.specUpTo h depth v = .ok spec.general
  | .any, _, depth, _, hv, _, _ => by
    obtain rfl := hv
    have hname : (r.className BuiltinClass.object).name = "object" :=
      name_className_builtIn hr.builtIns .object
    rw [← hname] at hobject
    rw [specUpTo_symbol (hr.space_className _) hobject, TypeSpec.general_object]
    rfl
  | .null, _, depth, _, hv, _, _ => by
    obtain rfl := hv
    rw [specUpTo, if_pos rfl, TypeSpec.general]
  | .tag name, _, depth, hname, hv, _, _ => by
    obtain rfl := hv
    have hne : name ≠ "null" := hname
    rw [specUpTo, if_neg hne, TypeSpec.general]
  | .ofClass c, _, depth, hc, hv, _, _ => by
    obtain rfl := hv
    exact specUpTo_symbol (hr.space_className c) hc depth
  | .oneOf members, v, depth, hmembers, hv, hdepth, hroom => by
    obtain ⟨items, ⟨p, rfl, -, hcar, hchain⟩, hitems⟩ := hv
    have hlength := hitems.length_eq
    rw [TypeSpec.pairCount] at hdepth hroom
    -- the pair at the head takes one of the depth
    obtain ⟨depth, rfl⟩ : ∃ d, depth = d + 1 := ⟨depth - 1, by omega⟩
    have hread := specsUpTo_of_rendersAll hr hobject members items depth hmembers hitems (by omega)
      (by omega)
    have helements : h.elements (h.cdr p) = .ok items := hchain.elements (by omega)
    rw [specUpTo, if_pos hcar, helements]
    show (do let specs ← items.mapM (r.specUpTo h depth); pure (TypeSpec.oneOf specs)) = _
    rw [hread]
    rfl

/-- The same for the data of several specifications, each read at the depth that is left. -/
theorem specsUpTo_of_rendersAll (hr : r.WellFormed)
    (hobject : r.findClass? h "object" = some BuiltinClass.object.id) :
    ∀ (specs : List TypeSpec) (items : List Value) (depth : Nat), r.RegisteredAll h specs →
      r.RendersAll h specs items → TypeSpec.pairCountAll specs ≤ depth →
        TypeSpec.pairCountAll specs ≤ h.pairs.size →
          items.mapM (r.specUpTo h depth) = .ok (TypeSpec.generalAll specs)
  | [], _, depth, _, hitems, _, _ => by
    obtain rfl := hitems
    rfl
  | spec :: rest, _, depth, ⟨hspec, hrest⟩, ⟨v, items', hitems, hv, hitems'⟩, hdepth, hroom => by
    obtain rfl := hitems
    rw [TypeSpec.pairCountAll] at hdepth hroom
    have hfirst := specUpTo_of_renders hr hobject spec v depth hspec hv (by omega) (by omega)
    have hothers := specsUpTo_of_rendersAll hr hobject rest items' depth hrest hitems' (by omega)
      (by omega)
    rw [List.mapM_cons, hfirst, hothers]
    rfl

end

/-- **Reading back.** The data that was written is read as the specification, with `any` for each
    `object`, if the classes' names are registered and `object` is. -/
theorem specOfData_specData (hr : r.WellFormed)
    (hobject : r.findClass? h "object" = some BuiltinClass.object.id) {spec : TypeSpec}
    (hspec : r.Registered h spec) :
    r.specOfData (r.specData spec h).2 (r.specData spec h).1 = .ok spec.general := by
  have hfind := findClass?_congr (Heap.grows_specData r spec h).frames r
  have hsize := size_pairs_specData r spec h
  refine specUpTo_of_renders hr ?_ spec _ _ (Registered.congr hfind spec hspec)
    (renders_specData r spec h) (by omega) (by omega)
  rw [hfind, hobject]

/-! ### Writing it again -/

mutual

/-- Data for a specification equals data for what is read back. -/
theorem equals_of_renders (r : Realm) (h : Heap) :
    ∀ (spec : TypeSpec) (v v' : Value), r.Renders h spec v → r.Renders h spec.general v' →
      h.Equals v v'
  | .any, _, _, hv, hv' => by
    obtain rfl := hv
    obtain rfl := hv'
    exact .refl rfl
  | .null, _, _, hv, hv' => by
    obtain rfl := hv
    obtain rfl := hv'
    exact .refl rfl
  | .tag _, _, _, hv, hv' => by
    obtain rfl := hv
    obtain rfl := hv'
    exact .refl rfl
  | .ofClass c, _, _, hv, hv' => by
    obtain rfl := hv
    -- `object` is written as a class and read back as any value, and both are written alike
    by_cases hc : c = BuiltinClass.object.id
    · rw [hc, TypeSpec.general_object] at hv'
      obtain rfl := hv'
      rw [hc]
      exact .refl rfl
    · rw [TypeSpec.general_ofClass_of_ne hc] at hv'
      obtain rfl := hv'
      exact .refl rfl
  | .oneOf members, _, _, hv, hv' => by
    obtain ⟨items, ⟨p, rfl, -, hcar, hchain⟩, hitems⟩ := hv
    obtain ⟨items', ⟨q, rfl, -, hcar', hchain'⟩, hitems'⟩ := hv'
    -- both lists begin with the head of unions
    refine .halves ?_ ?_
    · rw [hcar, hcar']
      exact .refl rfl
    · exact equals_of_rendersAll r h members _ _ items items' hchain hchain' hitems hitems'

/-- Lists of data for the same specifications are equal item by item. -/
theorem equals_of_rendersAll (r : Realm) (h : Heap) :
    ∀ (specs : List TypeSpec) (v v' : Value) (items items' : List Value),
      h.IsChain v items .nil → h.IsChain v' items' .nil → r.RendersAll h specs items →
        r.RendersAll h (TypeSpec.generalAll specs) items' → h.Equals v v'
  | [], _, _, _, _, hchain, hchain', hitems, hitems' => by
    obtain rfl := hitems
    obtain rfl := hitems'
    obtain rfl := hchain
    obtain rfl := hchain'
    exact .refl rfl
  | spec :: rest, _, _, _, _, hchain, hchain', ⟨item, items, hitems, hv, hrest⟩,
      ⟨item', items', hitems', hv', hrest'⟩ => by
    obtain rfl := hitems
    obtain rfl := hitems'
    obtain ⟨p, rfl, -, rfl, hchain⟩ := hchain
    obtain ⟨q, rfl, -, rfl, hchain'⟩ := hchain'
    -- pair by pair along both lists
    exact .halves (equals_of_renders r h spec _ _ hv hv')
      (equals_of_rendersAll r h rest _ _ items items' hchain hchain' hrest hrest')

end

/-- **Writing again.** The data that is written for what was read back equals the data that it was read
    from, whatever is registered. -/
theorem equal_specData (r : Realm) (spec : TypeSpec) (h : Heap) :
    (r.specData spec.general (r.specData spec h).2).2.equal (r.specData spec h).1
      (r.specData spec.general (r.specData spec h).2).1 = true := by
  have hgrows := Heap.grows_specData r spec.general (r.specData spec h).2
  exact Heap.equal_of_equals (equals_of_renders r _ spec _ _
    (Renders.extend hgrows.pairs spec _ (renders_specData r spec h))
    (renders_specData r spec.general _))

end Realm

end LispObjects
