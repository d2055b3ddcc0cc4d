import LispObjects.Fault
import LispObjects.Heap.Environment
import LispObjects.Symbol.Table

namespace LispObjects

/-!
# Realms

A realm is a world of names and classes of its own: a symbol table, a class graph, a root environment
and a configuration. Realms share a heap, so values can go from one to another, but a symbol or a
class handle means something only in the realm that made it.

A new realm knows the built-in classes. Its symbol table begins with the names that the realm itself
uses, then the classes' names as variables and as classes, and its root environment binds each of the
latter to its class.
-/

/-- The choices that an owner of a realm has. -/
structure Config where
  /-- How many places a quotient keeps. -/
  divisionScale : Nat := 20
  /-- Whether a last slot initialiser without a value is refused. If not, its slot becomes
  undefined. -/
  strictInitializers : Bool := true
  deriving DecidableEq, Repr, Inhabited

/-- The configuration as a record. -/
def Config.describe (c : Config) : String :=
  Text.record "VmConfig"
    [("division_scale", toString c.divisionScale),
      ("strict_initargs", toString c.strictInitializers)]

/-- The variable symbols that a realm uses: the slots of conditions, the slot of dynamic variables,
the head of unions in type specifications. -/
structure Names where
  message : Symbol
  datum : Symbol
  expectedType : Symbol
  symbol : Symbol
  environment : Symbol
  object : Symbol
  slotName : Symbol
  classSlot : Symbol
  methodName : Symbol
  stream : Symbol
  prompt : Symbol
  value : Symbol
  or : Symbol
  deriving DecidableEq, Repr

/-- Interns the names that a realm uses. -/
def Names.intern : StateM SymbolTable Names := do
  let name (s : String) : StateM SymbolTable Symbol := modifyGet (·.intern s .vars)
  return {
    message := ← name "message"
    datum := ← name "datum"
    expectedType := ← name "expected-type"
    symbol := ← name "symbol"
    environment := ← name "environment"
    object := ← name "object"
    slotName := ← name "slot-name"
    classSlot := ← name "class"
    methodName := ← name "method-name"
    stream := ← name "stream"
    prompt := ← name "prompt"
    value := ← name "value"
    or := ← name "or" }

/-- The record of a built-in class, whose name is interned as a variable. -/
def BuiltinClass.record (c : BuiltinClass) : StateM SymbolTable ClassRecord := do
  let name ← modifyGet (·.intern c.name .vars)
  return ⟨name, c.superclass?.map BuiltinClass.id, c.metaclass, .builtIn c⟩

/-- The graph of the built-in classes. -/
def ClassGraph.builtIn : StateM SymbolTable ClassGraph := do
  let records ← BuiltinClass.all.mapM BuiltinClass.record
  return ⟨records.toArray, 0⟩

/-- The binding of a built-in class to its name as a class. -/
def BuiltinClass.binding (c : BuiltinClass) : StateM SymbolTable (Symbol × Value) := do
  let key ← modifyGet (·.intern c.name .classes)
  return (key, .classObject c.id)

/-- A world of names and classes. -/
structure Realm where
  symbols : SymbolTable
  classes : ClassGraph
  root : Environment
  names : Names
  config : Config

namespace Realm

/-- A new realm, whose symbol table is known by `tableId`. -/
def boot (config : Config) (tableId : Nat) (h : Heap) : Realm × Heap :=
  let names := Names.intern.run (.empty tableId)
  let classes := ClassGraph.builtIn.run names.2
  let bindings := (BuiltinClass.all.mapM BuiltinClass.binding).run classes.2
  let root := h.newEnvironment none
  ({ symbols := bindings.2, classes := classes.1, root := root.1, names := names.1, config },
    bindings.1.foldl (fun h b => h.bind root.1 b.1 b.2) root.2)

/-! ### Classes -/

/-- The record of a class; a handle from outside the graph has that of `object`. -/
def record (r : Realm) (c : ClassId) : ClassRecord :=
  (r.classes.get? c).getD ⟨r.names.object, none, .builtIn, .builtIn .object⟩

/-- The name of a class. -/
def className (r : Realm) (c : ClassId) : Symbol :=
  (r.record c).name

/-- The class of a class. -/
def metaclassOf (r : Realm) (c : ClassId) : ClassId :=
  (r.record c).metaclass.asClass.id

/-- The class of a value. -/
def classOf (r : Realm) : Value → ClassId
  | .object o => r.classes.resolve o.classId
  | .classObject c => r.metaclassOf c
  | v => v.builtinClass?.getD .object |>.id

/-- Whether a class is found to be another one or to stand below it. -/
def isSubclass (r : Realm) (sub sup : ClassId) : Bool :=
  r.classes.isSubclass sub sup

/-- Whether the value is of the type. -/
def hasType (r : Realm) (v : Value) (spec : TypeSpec) : Bool :=
  spec.accepts (r.isSubclass (r.classOf v)) v

/-- Whether the value is of the type, as a search through the classes above its own; none if the
search has no end. -/
def hasType? (r : Realm) (v : Value) (spec : TypeSpec) : Option Bool :=
  spec.accepts? (r.classes.isSubclass? (r.classOf v)) v

/-- The value itself if it is of the type. -/
def assertType (r : Realm) (v : Value) (spec : TypeSpec) : Except Fault Value :=
  if r.hasType v spec then .ok v else .error (.wrongType v spec)

end Realm

end LispObjects
