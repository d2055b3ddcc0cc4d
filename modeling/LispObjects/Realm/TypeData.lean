import LispObjects.Heap.List
import LispObjects.Realm.Basic

namespace LispObjects.Realm

/-!
# Type specifications as data

A type specification can be written as data and read back. The string `"null"` is the host's null,
any other string a representation tag; a class is itself or the variable symbol of its name, and the
name of `object` stands for anything; a list headed by `or` is a union of the rest.
-/

mutual

/-- The specification as data. -/
def specData (r : Realm) : TypeSpec → Heap → Value × Heap
  | .any, h => (.symbol (r.className BuiltinClass.object), h)
  | .null, h => (.string "null", h)
  | .tag name, h => (.string name, h)
  | .ofClass c, h => (.symbol (r.className c), h)
  | .oneOf members, h =>
    let (items, h) := r.specDataList members h
    h.list (.symbol r.names.or :: items)

/-- The specifications as data, one by one. -/
def specDataList (r : Realm) : List TypeSpec → Heap → List Value × Heap
  | [], h => ([], h)
  | spec :: rest, h =>
    let (item, h) := r.specData spec h
    let (items, h) := r.specDataList rest h
    (item :: items, h)

end

/-- The class that the root environment registers under a name. -/
def findClass? (r : Realm) (h : Heap) (name : String) : Option ClassId := do
  let key ← r.symbols.find? name .classes
  let v ← h.lookup? r.root key
  v.classId?

/-- Reads a specification from data whose unions are nested no deeper than the given depth. -/
def specUpTo (r : Realm) (h : Heap) : Nat → Value → Except Fault TypeSpec
  | _, .string name => .ok (if name = "null" then .null else .tag name)
  | _, .classObject c => .ok (.ofClass c)
  | _, .symbol s =>
    if s.space = .vars then
      match r.findClass? h s.name with
      | some c => .ok (if c = BuiltinClass.object.id then .any else .ofClass c)
      | none => .error .unknownTypeSpec
    else .error .unknownTypeSpec
  | depth + 1, .pair p =>
    if h.car p = .symbol r.names.or then do
      let members ← h.elements (h.cdr p)
      let specs ← members.mapM (r.specUpTo h depth)
      pure (.oneOf specs)
    else .error .unknownTypeSpec
  | _, _ => .error .unknownTypeSpec

/-- Reads a specification from data. Data that does not contain itself is nested no deeper than there
are pairs in the heap, and one level more for a reference that leads nowhere. -/
def specOfData (r : Realm) (h : Heap) (v : Value) : Except Fault TypeSpec :=
  r.specUpTo h (h.pairs.size + 1) v

/-- Whether the value is of the type that the data describes. -/
def hasTypeData (r : Realm) (h : Heap) (v spec : Value) : Except Fault Bool :=
  (r.specOfData h spec).map (r.hasType v)

end LispObjects.Realm
