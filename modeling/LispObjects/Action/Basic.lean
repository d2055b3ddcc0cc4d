import LispObjects.Realm.Condition
import LispObjects.Value.Arithmetic

namespace LispObjects

/-!
# Actions

An action works on an image: the heap, and the realm that it runs in. It gives a result or fails with
a fault, and the image that it leaves behind is there in both cases, so what a failed action has done
can be told.
-/

/-- A heap, and the realm whose names and classes are meant. -/
structure Image where
  heap : Heap
  realm : Realm

/-- A computation on an image that may fail. -/
abbrev Action (α : Type) : Type :=
  ExceptT Fault (StateM Image) α

namespace Action

variable {α : Type}

/-- The result of an action on an image, and the image afterwards. -/
def runOn (action : Action α) (image : Image) : Except Fault α × Image :=
  (action.run).run image

/-- Fails with a fault. -/
def fail (f : Fault) : Action α :=
  throw f

/-- A result or fault that is read off the image. -/
def query (f : Realm → Heap → Except Fault α) : Action α := do
  let image ← get
  ofExcept (f image.realm image.heap)

/-- Makes or changes things in the heap. -/
def onHeap (f : Heap → α × Heap) : Action α :=
  modifyGet fun
    | ⟨heap, realm⟩ =>
      let (a, heap) := f heap
      (a, ⟨heap, realm⟩)

/-- Changes the heap. -/
def changeHeap (f : Heap → Heap) : Action Unit :=
  onHeap fun h => ((), f h)

/-- Hands out symbols. -/
def onSymbols (f : SymbolTable → α × SymbolTable) : Action α :=
  modifyGet fun
    | ⟨heap, realm⟩ =>
      let (a, symbols) := f realm.symbols
      (a, ⟨heap, { realm with symbols }⟩)

/-- Adds classes. -/
def onClasses (f : ClassGraph → α × ClassGraph) : Action α :=
  modifyGet fun
    | ⟨heap, realm⟩ =>
      let (a, classes) := f realm.classes
      (a, ⟨heap, { realm with classes }⟩)

/-! ### Symbols -/

/-- The realm's symbol of that name. -/
def internName (name : String) (space : Namespace) : Action Symbol :=
  onSymbols (·.intern name space)

/-- The realm's symbol whose name is the text that the value is. -/
def intern (name : Value) (space : Namespace) : Action Symbol := do
  internName (← ofExcept name.asString) space

/-- The realm's symbol of the same name in another namespace. -/
def convert (s : Symbol) (space : Namespace) : Action Symbol :=
  onSymbols (·.convert s space)

/-! ### Checks, lists and bindings -/

/-- The value itself if it is of the type. -/
def assertType (v : Value) (spec : TypeSpec) : Action Value :=
  query fun r _ => r.assertType v spec

/-- Makes a proper list. -/
def list (items : List Value) : Action Value :=
  onHeap (·.list items)

/-- The elements of a proper list. -/
def elements (v : Value) : Action (List Value) :=
  query fun _ h => h.elements v

/-- The element of a list at an index. -/
def element (v : Value) (index : Nat) : Action Value :=
  query fun _ h => h.element v index

/-- Makes a list of the elements of a list in the opposite order. -/
def reverse (v : Value) : Action Value := do
  list (← elements v).reverse

/-- Makes a copy of a list that ends in `back`. -/
def append (front back : Value) : Action Value := do
  let items ← elements front
  onHeap (·.chain items back)

/-- The value of a symbol in an environment. -/
def lookup (e : Environment) (s : Symbol) : Action Value :=
  query fun _ h =>
    match h.lookup? e s with
    | some v => .ok v
    | none => .error (.unboundSymbol s e)

/-- Binds a symbol in the root environment. -/
def bindRoot (s : Symbol) (v : Value) : Action Unit := do
  let image ← get
  changeHeap (·.bind image.realm.root s v)

/-- Binds a variable of that name in the root environment. -/
def define (name : String) (v : Value) : Action Unit := do
  bindRoot (← internName name .vars) v

end Action

end LispObjects
